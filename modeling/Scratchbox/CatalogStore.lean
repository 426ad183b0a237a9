import Scratchbox.CatalogTree

/-!
# The store law of the catalogs

What `ruletree_catalog_vset` and `ruletree_catalog_set` store is what `ruletree_catalog_vget`
returns, and no other value changes (`catalog_store_law`). It holds as long as values are
offsets of objects that are no catalog entries, and names lead through catalogs only.

Otherwise a success is reported for an entry that nothing leads to, or one catalog has two
names (`orphan_and_shared_catalogs`).
-/

namespace Scratchbox

open Bytes RecordFormat NameTree

/-! ## New entries -/

section Create

variable {img : Image} {t : NameTree CText Offset} {p : List CText} {start : Offset}

theorem length_le_append (img : Image) (new : NewObject) :
    img.length ≤ (Image.append img new).length :=
  lengthDiscipline.grows (.append new) img trivial trivial

theorem CatalogFile.returns_create (h : CatalogFile img t) (n : CText) :
    FileReturns (createCatalogEntry (some n) 0) img fun addr img' =>
      Becomes img img' t ∧ EntryIn img' addr n 0 0 ∧ addr ∉ t.addrs := by
  refine .command fun hfirst => .step fun hsecond => .ret ?_
  change (Image.append img (.string n)).length < 2 ^ 32 at hfirst
  change (Image.append (Image.append img (.string n))
    (.catalog (BitVec.ofNat 32 img.length) 0 0)).length < 2 ^ 32 at hsecond
  have hnamed := h.append hfirst
  have hname : HasName (Image.append img (.string n)) (BitVec.ofNat 32 img.length) n :=
    ⟨_, h.laid.appended hfirst, rfl, NewObject.drop_string n⟩
  have hgrows := grows_append hsecond
  have hentry := hnamed.file.laid.appended hsecond
  have hlast : (BitVec.ofNat 32 (Image.append img (.string n)).length).toNat =
      (Image.append img (.string n)).length := hnamed.file.laid.toNat_length
  refine ⟨⟨hnamed.grows.trans hgrows, (hnamed.file.append hsecond).file⟩,
    ⟨_, hentry, rfl, ?_, ?_, ?_⟩, fun hmem => ?_⟩
  · have hword : Image.word ((NewObject.catalog (BitVec.ofNat 32 img.length) 0 0).raw
        (contents_lt hsecond)).body 0 = BitVec.ofNat 32 img.length := word_of_slice rfl
    rw [hword]
    exact hname.grows hgrows
  · exact word_of_slice rfl
  · exact word_of_slice rfl
  · -- the other entries are in front of the end of the file
    obtain ⟨_, _, _, o, ho, -⟩ := entryIn_of_rep h.rep _ hmem
    have hlt : (BitVec.ofNat 32 (Image.append img (.string n)).length).toNat < img.length :=
      ho.lt_length
    rw [hlast] at hlt
    exact absurd hlt (Nat.not_lt.2 (length_le_append img _))

theorem EntryIn.run_entryPtr {offs value next : Offset} {name : CText}
    (h : EntryIn img offs name value next) :
    (entryPtr offs).run Access.handle img = (.ok (some offs), img) :=
  Program.run_bind_of_ok (run_look h.hasObjectPtr)

theorem CatalogFile.run_linkEntry (h : CatalogFile img t) (hopen : t.Open 0 p)
    (hstart : StartsAt t p start) {addr : Offset} {n : CText} (hnew : EntryIn img addr n 0 0)
    (hfresh : addr ∉ t.addrs) :
    ∃ img', (linkEntryToRuletreeCatalog start addr).run Access.handle img = (.ok (), img') ∧
      Becomes img img' (t.grow 0 addr n p) := by
  by_cases hcatalog : t.catalogAt p = nil
  · rcases hstart with ⟨rfl, rfl⟩ | ⟨-, hne⟩
    · have ht : t = nil := hcatalog
      subst ht
      exact ⟨_, Program.run_bind_of_ok h.run_findLast_nil, h.grow_root hnew⟩
    · exact absurd hcatalog hne
  · exact ⟨_, Program.run_bind_of_ok (h.run_findLastCatalogEntry hstart hcatalog),
      h.grow_link hopen hcatalog hnew hfresh⟩

theorem CatalogFile.returns_addEntry (h : CatalogFile img t) (hopen : t.Open 0 p)
    (hstart : StartsAt t p start) (n : CText) :
    FileReturns (addEntryToRuletreeCatalog start (some n) 0) img fun r img' =>
      ∃ addr, r = some addr ∧ Becomes img img' (t.grow 0 addr n p) := by
  refine (h.returns_create n).bind fun addr img₁ hcreated => ?_
  obtain ⟨⟨hgrows, h₁⟩, hnew, hfresh⟩ := hcreated
  rw [if_neg hnew.ne_zero]
  obtain ⟨img₂, hlink, hgrows', h₂⟩ := h₁.run_linkEntry hopen hstart hnew hfresh
  have hmem : addr ∈ (t.grow 0 addr n p).addrs :=
    (addrs_grow hopen addr n).mem_iff.2 List.mem_cons_self
  obtain ⟨_, _, _, hentry⟩ := entryIn_of_rep h₂.rep addr hmem
  exact .of_run ((Program.run_bind_of_ok hlink).trans hentry.run_entryPtr)
    ⟨addr, rfl, hgrows.trans hgrows', h₂⟩

end Create

/-! ## Storing by names -/

/-- How far the names have been followed: the value at the path, and the entry there. -/
def Cursor (t : NameTree CText Offset) : List CText → Offset → Option Offset → Prop
  | [], start, catptr => start = t.head 0 ∧ catptr = none
  | m :: p, start, catptr => ∃ node, t.entryAt (m :: p) = some node ∧
    start = field node.value node.sub ∧ catptr = some node.addr

/-- What is kept while the names are followed: all values but the one at the path, which can
become a catalog. -/
structure Kept (p : List CText) (t t' : NameTree CText Offset) : Prop where
  get : ∀ q, q ≠ p → t'.get 0 q = t.get 0 q
  plainAt : ∀ q, t'.plainAt 0 q = t.plainAt 0 q

section Follow

variable {img : Image} {t : NameTree CText Offset} {p : List CText} {start : Offset}
  {catptr : Option Offset} {n : CText}

theorem Cursor.open (h : Cursor t p start catptr) (hplain : t.plainAt 0 p = 0) : t.Open 0 p := by
  cases p with
  | nil => trivial
  | cons m p =>
    obtain ⟨node, hnode, -⟩ := h
    rw [NameTree.plainAt, seenAt, hnode] at hplain
    exact ⟨node, hnode, hplain⟩

theorem Cursor.startsAt (h : Cursor t p start catptr) (hopen : t.Open 0 p) (hstart : start ≠ 0) :
    StartsAt t p start := by
  cases p with
  | nil =>
    refine .inr ⟨h.1, ?_⟩
    rintro hnil
    rw [h.1, show t = nil from hnil] at hstart
    exact hstart rfl
  | cons m p =>
    obtain ⟨node, hnode, hvalue, -⟩ := h
    obtain ⟨node', hnode', hplain⟩ := hopen
    rw [hnode] at hnode'
    cases hnode'
    rw [StartsAt, catalogAt_of_entryAt hnode]
    cases hsub : node.sub with
    | nil =>
      rw [hsub] at hvalue hplain
      exact absurd (hvalue.trans hplain) hstart
    | entry addr m value sub next =>
      rw [hsub] at hvalue
      exact .inr ⟨hvalue, nofun⟩

theorem grow_kept (hopen : t.Open 0 p) (hnone : t.entryAt (p ++ [n]) = none) (addr : Offset) :
    (∃ node, (t.grow 0 addr n p).entryAt (p ++ [n]) = some node ∧ node.addr = addr) ∧
      Kept p t (t.grow 0 addr n p) := by
  have hne : p ++ [n] ≠ p := by simp
  have hseen := seenAt_grow hopen hnone addr hne
  rw [if_pos rfl, seenAt, Option.map_eq_some_iff] at hseen
  obtain ⟨node, hnode, hfields⟩ := hseen
  exact ⟨⟨node, hnode, congrArg Prod.fst hfields⟩, fun q => get_grow hopen hnone addr,
    plainAt_grow hopen hnone addr⟩

def Followed (img : Image) (t : NameTree CText Offset) (p : List CText) (n : CText)
    (r : Option Offset) (img' : Image) : Prop :=
  ∃ t' node, r = some node.addr ∧ Becomes img img' t' ∧ t'.entryAt (p ++ [n]) = some node ∧
    Kept p t t'

theorem followed_grow (hopen : t.Open 0 p) (hnone : t.entryAt (p ++ [n]) = none) {addr : Offset}
    {img' : Image} (h : Becomes img img' (t.grow 0 addr n p)) :
    Followed img t p n (some addr) img' := by
  obtain ⟨⟨node, hnode, haddr⟩, hkept⟩ := grow_kept hopen hnone addr
  exact ⟨_, node, by rw [haddr], h, hnode, hkept⟩

/-- One name is followed in a catalog that has entries, or in the root catalog. -/
theorem CatalogFile.returns_addNew (h : CatalogFile img t) (hopen : t.Open 0 p)
    (hstart : StartsAt t p start) (hnone : t.entryAt (p ++ [n]) = none) :
    FileReturns (addEntryToRuletreeCatalog start (some n) 0) img (Followed img t p n) := by
  refine (h.returns_addEntry hopen hstart n).mono fun r img' hadded => ?_
  obtain ⟨addr, rfl, h'⟩ := hadded
  exact followed_grow hopen hnone h'

variable {node : Node CText Offset} {v : Offset} {namev : List CText}

theorem CatalogFile.returns_addFirst (h : CatalogFile img t) (hopen : t.Open 0 p)
    (hnode : t.entryAt p = some node) (hempty : node.sub = nil) (n : CText) :
    FileReturns (createCatalogEntry (some n) 0 >>= fun objectOffs =>
      store (.catValue objectOffs) node.addr >>= fun _ => entryPtr objectOffs) img
        (Followed img t p n) := by
  have hplain : plain 0 node.value node.sub = 0 := by
    cases p with
    | nil =>
      rw [entryAt_nil_path] at hnode
      cases hnode
    | cons m p =>
      obtain ⟨node', hnode', hplain⟩ := hopen
      rw [hnode] at hnode'
      cases hnode'
      exact hplain
  have hnone : t.entryAt (p ++ [n]) = none := by
    rw [entryAt_append hnode (List.cons_ne_nil _ _), hempty]
    rfl
  refine (h.returns_create n).bind fun addr img₁ hcreated => ?_
  obtain ⟨⟨hgrows, h₁⟩, hnew, hfresh⟩ := hcreated
  obtain ⟨hgrows', h₂⟩ := h₁.grow_first hnode hempty hplain hnew hfresh
  have hmem : addr ∈ (t.grow 0 addr n p).addrs :=
    (addrs_grow hopen addr n).mem_iff.2 List.mem_cons_self
  obtain ⟨_, _, _, hentry⟩ := entryIn_of_rep h₂.rep addr hmem
  exact .command fun _ => .of_run hentry.run_entryPtr
    (followed_grow hopen hnone ⟨hgrows.trans hgrows', h₂⟩)

theorem CatalogFile.returns_addOrFind (h : CatalogFile img t) (hcursor : Cursor t p start catptr)
    (hplain : t.plainAt 0 p = 0) (n : CText) :
    FileReturns (catalogAddOrFindObject start (some n) catptr) img (Followed img t p n) := by
  have hopen := hcursor.open hplain
  have hbelow := entryAt_catalogAt hopen (List.cons_ne_nil n [])
  unfold catalogAddOrFindObject
  by_cases hstart : start = 0
  · rw [if_neg (not_not.2 hstart)]
    cases p with
    | nil =>
      -- the root catalog is empty
      obtain ⟨hroot, rfl⟩ := hcursor
      have hempty : t = nil := by
        cases t with
        | nil => rfl
        | entry addr m value sub next =>
          exact absurd (hroot.symm.trans hstart) (head_ne_zero h.rep nofun)
      subst hempty
      exact h.returns_addNew hopen (.inl ⟨rfl, rfl⟩) rfl
    | cons m p =>
      obtain ⟨node, hnode, hvalue, rfl⟩ := hcursor
      have hempty : node.sub = nil := by
        have hrep := (h.rep.entryAt hnode).2
        cases hsub : node.sub with
        | nil => rfl
        | entry addr m value sub next =>
          rw [hsub] at hvalue hrep
          exact absurd (hvalue.symm.trans hstart) (head_ne_zero hrep nofun)
      exact h.returns_addFirst hopen hnode hempty n
  · rw [if_pos hstart]
    have hstarts := hcursor.startsAt hopen hstart
    refine .bind_run (h.run_findCatalogEntry hstarts n) ?_
    rw [← hbelow]
    cases hnode : t.entryAt (p ++ [n]) with
    | none => exact h.returns_addNew hopen hstarts hnode
    | some node => exact .ret ⟨t, node, rfl, ⟨.refl img, h⟩, hnode, fun _ _ => rfl, fun _ => rfl⟩

/-- The names have been followed to their end, and the value is stored. -/
def StoredAt (t : NameTree CText Offset) (p : List CText) (v : Offset) (done : Bool)
    (img : Image) : Prop :=
  done = true ∧ ∃ t', CatalogFile img t' ∧ t'.get 0 p = v ∧
    ∀ q, ¬ q <+: p → ¬ p <+: q → t'.get 0 q = t.get 0 q

theorem CatalogFile.returns_storeValue (h : CatalogFile img t) (hnode : t.entryAt p = some node)
    (hv : LeafValue img v) :
    FileReturns (store (.catValue v) node.addr >>= fun _ => pure true) img (StoredAt t p v) :=
  .command fun _ => .ret ⟨rfl, _, (h.setValue hnode hv).file, get_setValue_self hnode v,
    fun _ _ hq => get_setValue_other t hq v⟩

theorem CatalogFile.run_loadValue (h : CatalogFile img t) (hnode : t.entryAt p = some node) :
    (load node.addr 12).run Access.handle img = (.ok (field node.value node.sub), img) := by
  obtain ⟨_, _, hentry, -⟩ := h.cell hnode
  exact run_load hentry.value_eq

theorem cursor_of_entryAt (hnode : t.entryAt (p ++ [n]) = some node) :
    Cursor t (p ++ [n]) (field node.value node.sub) (some node.addr) := by
  cases p with
  | nil => exact ⟨node, hnode, rfl, rfl⟩
  | cons m p => exact ⟨node, hnode, rfl, rfl⟩

theorem StoredAt.of_kept {t' : NameTree CText Offset} {q : List CText} {done : Bool}
    (hkept : Kept p t t') (hbegins : p <+: q) (h : StoredAt t' q v done img) :
    StoredAt t q v done img := by
  obtain ⟨hdone, t'', h'', hget, hothers⟩ := h
  refine ⟨hdone, t'', h'', hget, fun r hr hr' => ?_⟩
  rw [hothers r hr hr', hkept.get r fun heq => hr (heq ▸ hbegins)]

theorem CatalogFile.returns_vsetLoop (h : CatalogFile img t) (hv : LeafValue img v)
    (hne : p ++ namev ≠ []) (hcursor : Cursor t p start catptr)
    (hplain : ∀ q r, namev = q ++ r → r ≠ [] → t.plainAt 0 (p ++ q) = 0) :
    FileReturns (catalogVsetLoop v start catptr namev) img (StoredAt t (p ++ namev) v) := by
  induction namev generalizing img t p start catptr with
  | nil =>
    rw [List.append_nil] at hne ⊢
    cases p with
    | nil => exact absurd rfl hne
    | cons m p =>
      obtain ⟨node, hnode, -, rfl⟩ := hcursor
      exact h.returns_storeValue hnode hv
  | cons n namev ih =>
    have hhere : t.plainAt 0 p = 0 := by
      have hfirst := hplain [] (n :: namev) rfl (List.cons_ne_nil _ _)
      rwa [List.append_nil] at hfirst
    have hpath : p ++ n :: namev = p ++ [n] ++ namev := by rw [List.append_assoc]; rfl
    rw [catalogVsetLoop]
    refine (h.returns_addOrFind hcursor hhere n).bind fun r img' hfollowed => ?_
    obtain ⟨t', node, rfl, ⟨hgrows, h'⟩, hnode, hkept⟩ := hfollowed
    refine .bind_run (h'.run_loadValue hnode) ?_
    rw [hpath] at hne ⊢
    refine (ih h' (hv.grows hgrows) hne (cursor_of_entryAt hnode) fun q r hnamev hr => ?_).mono
      fun done img'' => StoredAt.of_kept hkept ?_
    · rw [hkept.plainAt, List.append_assoc]
      exact hplain (n :: q) r (by rw [hnamev]; rfl) hr
    · rw [List.append_assoc]
      exact List.prefix_append _ _

theorem CatalogFile.run_loadRoot (h : CatalogFile img t) :
    (load 0 12).run Access.handle img = (.ok (t.head 0), img) := run_load h.root

theorem plainAt_nil (t : NameTree CText Offset) : t.plainAt 0 [] = 0 := by
  rw [NameTree.plainAt, seenAt, entryAt_nil_path]
  rfl

theorem CatalogFile.returns_vset (h : CatalogFile img t) (hv : LeafValue img v) (hne : namev ≠ [])
    (hplain : ∀ q r, namev = q ++ r → r ≠ [] → t.plainAt 0 q = 0) :
    FileReturns (catalogVset namev v) img (StoredAt t namev v) :=
  .bind_run h.run_loadRoot (h.returns_vsetLoop (p := []) hv hne ⟨rfl, rfl⟩ hplain)

theorem CatalogFile.returns_set (h : CatalogFile img t) (hv : LeafValue img v) {c o : CText}
    (hplain : t.plainAt 0 [c] = 0) :
    FileReturns (catalogSet (some c) (some o) v) img (StoredAt t [c, o] v) := by
  refine .bind_run h.run_loadRoot ?_
  refine (h.returns_addOrFind (p := []) ⟨rfl, rfl⟩ (plainAt_nil t) c).bind
    fun r img₁ hcatalog => ?_
  obtain ⟨t₁, node, rfl, ⟨hgrows, h₁⟩, hnode, hkept⟩ := hcatalog
  refine .bind_run (h₁.run_loadValue hnode) ?_
  have hopen : t₁.plainAt 0 [c] = 0 := by rw [hkept.plainAt, hplain]
  refine (h₁.returns_addOrFind (cursor_of_entryAt hnode) hopen o).bind fun r img₂ hobject => ?_
  obtain ⟨t₂, node', rfl, ⟨hgrows', h₂⟩, hnode', hkept'⟩ := hobject
  refine (h₂.returns_storeValue hnode' ((hv.grows hgrows).grows hgrows')).mono
    fun done img₃ hstored => ?_
  exact (hstored.of_kept hkept' (List.prefix_append _ _)).of_kept hkept List.nil_prefix

end Follow

/-! ## The other operations -/

def SameCatalogs {α : Type} (img : Image) (t : NameTree CText Offset) (_ : α) (img' : Image) :
    Prop :=
  Becomes img img' t

section Others

variable {α : Type} {img : Image} {t : NameTree CText Offset} {offs : Offset} {type : ObjectType}
  {post : α → Image → Prop}

theorem returns_look {f : Bool → RuletreeProgram α} (hknown : Known img offs)
    (hf : ∀ found, (found = true → HasObject img offs type) → FileReturns (f found) img post) :
    FileReturns (look type offs >>= f) img post := .command fun _ => hf _ hknown.hasObject

theorem returns_load {place : Nat} {f : BitVec 32 → RuletreeProgram α}
    (hf : ∀ v, FileReturns (f v) img post) : FileReturns (load offs place >>= f) img post :=
  .command fun _ => hf _

section

variable (h : CatalogFile img t) {last : Offset}

include h

theorem returns_append {new : NewObject} {f : Offset → RuletreeProgram α}
    (hf : ∀ img' offs, Becomes img img' t → HasObject img' offs new.type →
      FileReturns (f offs) img' post) : FileReturns (append new >>= f) img post :=
  .command fun hlimit => hf _ _ (h.append hlimit) ⟨_, h.laid.appended hlimit, rfl⟩

theorem returns_store {field : FieldStore} {f : Unit → RuletreeProgram α}
    (hobject : HasObject img offs field.type) (hlist : field.type ≠ .objectlist)
    (hcatalog : field.type ≠ .catalog) (hheader : field.type ≠ .filehdr)
    (hf : ∀ img', Becomes img img' t → FileReturns (f ()) img' post) :
    FileReturns (store field offs >>= f) img post := by
  obtain ⟨o, ho, htype⟩ := hobject
  rw [← htype] at hlist hcatalog hheader
  have hfits := FieldStore.fits_of_type htype.symm hlist
  exact .command fun _ => hf _ (h.store_other ho hfits hcatalog hheader)

theorem CatalogFile.returns_setItem (hknown : Known img offs)
    (n : BitVec 32) (value : Offset) :
    FileReturns (objectlistSetItem offs n value) img (SameCatalogs img t) := by
  have hsame : Becomes img img t := ⟨.refl img, h⟩
  refine returns_look hknown fun found hfound => ?_
  cases found with
  | false => exact .ret hsame
  | true =>
    obtain ⟨o, ho, htype⟩ := hfound rfl
    refine .bind_run (run_load ho.size_eq) ?_
    split
    · exact .ret hsame
    · rename_i hn
      have hfits : (FieldStore.item n value).Fits o :=
        FieldStore.fits_item htype (BitVec.not_le.1 hn)
      exact .command fun _ => .ret (h.store_other ho hfits (by rw [htype]; exact nofun)
        (by rw [htype]; exact nofun))

theorem CatalogFile.returns_overwrite (field : FieldStore)
    (hknown : Known img offs) (hlist : field.type ≠ .objectlist) (hcatalog : field.type ≠ .catalog)
    (hheader : field.type ≠ .filehdr) :
    FileReturns (look field.type offs >>= fun found =>
      if found = true then store field offs else pure PUnit.unit) img (SameCatalogs img t) := by
  refine returns_look hknown fun found hfound => ?_
  cases found with
  | false => exact .ret ⟨.refl img, h⟩
  | true =>
    exact returns_store (f := pure) h (hfound rfl) hlist hcatalog hheader fun img' h' => .ret h'

theorem CatalogFile.returns_addToBintree (value : Offset) (key1 key2 : BitVec 64)
    (hlast : Known img last) (direction : Option SearchTree.Side) :
    FileReturns (addToBintreeEntry value key1 key2 last direction) img fun root img' =>
      Becomes img img' t ∧ LeafValue img' root := by
  unfold addToBintreeEntry
  split
  · refine returns_append (f := pure) h fun img' root h' hroot => .ret ⟨h', ?_⟩
    obtain ⟨o, ho, htype⟩ := hroot
    exact ⟨o, ho, by rw [htype]; exact nofun⟩
  · refine returns_look hlast fun found hfound => ?_
    cases found with
    | false => exact .ret ⟨⟨.refl img, h⟩, h.laid.leafValue_zero⟩
    | true =>
      refine returns_append h fun img' new h' hnew => ?_
      refine .command fun _ => .command fun _ => ?_
      have hparent := (hfound rfl).grows h'.grows
      have hdone : FileReturns (pure 0 : RuletreeProgram Offset) img' fun root img'' =>
          Becomes img img'' t ∧ LeafValue img'' root := .ret ⟨h', h'.file.laid.leafValue_zero⟩
      have hlink : ∀ (field : FieldStore) (place : Nat), field.type = .bintree →
          FileReturns (load last place >>= fun link =>
            if link = 0 then store field last >>= fun _ => pure 0
            else (pure 0 : RuletreeProgram Offset)) img' fun root img'' =>
              Becomes img img'' t ∧ LeafValue img'' root := by
        intro field place htype
        refine returns_load fun link => ?_
        split
        · refine returns_store h'.file (by rw [htype]; exact hparent) (by rw [htype]; exact nofun)
            (by rw [htype]; exact nofun) (by rw [htype]; exact nofun) fun img'' h'' => ?_
          exact .ret ⟨h'.trans h'', h''.file.laid.leafValue_zero⟩
        · exact hdone
      cases direction with
      | none => exact hdone
      | some side =>
        cases side with
        | less =>
          show FileReturns (if _ then _ else _) img' _
          split
          · exact hlink (.linkLess new) 28 rfl
          · exact hdone
        | more =>
          show FileReturns (if _ then _ else _) img' _
          split
          · exact hlink (.linkMore new) 32 rfl
          · exact hdone

/-- The state of an inode is set; the root of the tree of inodes is stored in a catalog. -/
theorem CatalogFile.returns_setInodestat (hsound : SoundFile img) (dev ino : BitVec 64)
    (hoffs : Known img offs) (hlast : Known img last) (result : Option SearchTree.Side)
    (istat : InodeSimu) (hplain : t.plainAt 0 [vpermName] = 0) :
    FileReturns (setInodestat dev ino offs last result istat) img fun _ img' =>
      ∃ t', CatalogFile img' t' := by
  unfold setInodestat
  split
  · refine returns_look hoffs fun found hfound => ?_
    cases found with
    | false => exact .ret ⟨t, h⟩
    | true =>
      have hvalue : Known img (Image.word img (offs.toNat + 24)) := by
        obtain ⟨o, ho, htype⟩ := hfound rfl
        have hk : 16 ∈ o.type.refPlaces := by
          rw [htype]
          decide
        have hknown := hsound.refs _ o ho 16 hk
        rwa [← ho.word_eq (o.ref_fits hk)] at hknown
      refine .bind_run (run_load rfl) ?_
      refine returns_look hvalue fun found hfound => ?_
      cases found with
      | false => exact .ret ⟨t, h⟩
      | true =>
        exact returns_store h (hfound rfl) nofun nofun nofun fun img' h' => .ret ⟨t, h'.file⟩
  · refine returns_append h fun img' created h' hcreated => ?_
    refine (h'.file.returns_addToBintree created (inoToKey ino) dev (hlast.grows h'.grows)
      result).bind fun root img'' hroot => ?_
    obtain ⟨h'', hleaf⟩ := hroot
    split
    · refine (h''.file.returns_set hleaf hplain).bind fun done img₃ hstored => ?_
      obtain ⟨-, t', h₃, -⟩ := hstored
      exact .ret ⟨t', h₃⟩
    · exact .ret ⟨t, h''.file⟩

end

end Others

/-! ## The law -/

/-- There is no value for the names, or it is a catalog. -/
def Enterable (img : Image) (namev : List CText) : Prop :=
  ∃ v, resultOf (catalogVget namev) img = .ok v ∧
    (v = 0 ∨ resultOf (look .catalog v) img = .ok true)

/-- What a step of a run needs: the value is no catalog, and the names lead through catalogs
only. -/
def CatalogStep (img : Image) : RuletreeOp → Prop
  | .catalogVset namev value => LeafValue img value ∧
    ∀ q r, namev = q ++ r → q ≠ [] → r ≠ [] → Enterable img q
  | .catalogSet (some catalogName) (some _) value =>
    LeafValue img value ∧ Enterable img [catalogName]
  | .catalogSet _ _ _ => False
  | .setInodestat _ _ _ _ _ _ => Enterable img [vpermName]
  | _ => True

/-- A value is stored by names: success is reported, the value is found, and the values of
names that are neither a beginning nor an extension are unchanged. -/
structure Stores (set : RuletreeProgram Bool) (namev : List CText) (value : Offset) (img : Image) :
    Prop where
  success : resultOf set img = .ok true
  found : resultOf (catalogVget namev) (fileAfter set img) = .ok value
  others : ∀ q, ¬ q <+: namev → ¬ namev <+: q →
    resultOf (catalogVget q) (fileAfter set img) = resultOf (catalogVget q) img

def StoreLaw (img : Image) : RuletreeOp → Prop
  | .catalogVset namev value => namev ≠ [] → Stores (catalogVset namev value) namev value img
  | .catalogSet (some catalogName) (some objectName) value =>
    Stores (catalogSet (some catalogName) (some objectName) value) [catalogName, objectName] value
      img
  | _ => True

def EachStep (P : Image → RuletreeOp → Prop) (img : Image) : List RuletreeOp → Prop
  | [] => True
  | op :: ops => P img op ∧ EachStep P (op.program.run Access.handle img).2 ops

section Law

variable {img : Image} {t : NameTree CText Offset}

theorem CatalogFile.result_vget (h : CatalogFile img t) (namev : List CText) :
    resultOf (catalogVget namev) img = .ok (t.get 0 namev) := by
  rw [resultOf, h.run_catalogVget]

theorem CatalogFile.plainAt_eq_zero (h : CatalogFile img t) {q : List CText}
    (henter : Enterable img q) : t.plainAt 0 q = 0 := by
  obtain ⟨v, hget, hv⟩ := henter
  rw [h.result_vget] at hget
  have hget := Except.ok.inj hget
  rw [NameTree.get, seenAt] at hget
  rw [NameTree.plainAt, seenAt]
  cases hnode : t.entryAt q with
  | none => rfl
  | some node =>
    rw [hnode] at hget
    have hvalue : field node.value node.sub = v := hget
    obtain ⟨_, _, -, hleaf⟩ := h.cell hnode
    show plain 0 node.value node.sub = 0
    cases hsub : node.sub with
    | entry addr m value sub next => rfl
    | nil =>
      rw [hsub] at hvalue hleaf
      rcases hv with hzero | hcatalog
      · exact hvalue.trans hzero
      · -- a plain value is no catalog
        have hptr : Image.hasObjectPtr img .catalog v = true := Except.ok.inj hcatalog
        have hleaf : LeafValue img v := hvalue ▸ hleaf
        rw [hleaf.hasObjectPtr] at hptr
        cases hptr

theorem CatalogFile.stores (h : CatalogFile img t) {set : RuletreeProgram Bool}
    {namev : List CText} {v : Offset} (hset : FileReturns set img (StoredAt t namev v))
    (hlimit : (fileAfter set img).length < 2 ^ 32) :
    Stores set namev v img ∧ ∃ t', CatalogFile (fileAfter set img) t' := by
  obtain ⟨done, hresult, rfl, t', h', hget, hothers⟩ := hset.sound (rely_of_length set hlimit)
  have h' : CatalogFile (fileAfter set img) t' := h'
  refine ⟨⟨hresult, ?_, fun q hq hq' => ?_⟩, t', h'⟩
  · rw [h'.result_vget, hget]
  · rw [h'.result_vget, hothers q hq hq', h.result_vget]

theorem CatalogFile.step (h : CatalogFile img t) (hsound : SoundFile img) {op : RuletreeOp}
    (hknown : ∀ offs ∈ op.offsets, Known img offs) (hstep : CatalogStep img op)
    (hlimit : (op.program.run Access.handle img).2.length < 2 ^ 32) :
    StoreLaw img op ∧ ∃ t', CatalogFile (op.program.run Access.handle img).2 t' := by
  have hother : ∀ {p : RuletreeProgram Unit},
      FileReturns p img (fun _ img' => ∃ t', CatalogFile img' t') →
      (p.run Access.handle img).2.length < 2 ^ 32 →
        ∃ t', CatalogFile (p.run Access.handle img).2 t' := by
    intro p hreturns hlength
    obtain ⟨_, -, hfile⟩ := hreturns.sound (rely_of_length p hlength)
    exact hfile
  -- the result of a function is left out of its operation
  have hset : ∀ {set : RuletreeProgram Bool} {namev : List CText} {v : Offset},
      FileReturns set img (StoredAt t namev v) →
      ((set >>= fun _ => pure PUnit.unit).run Access.handle img).2.length < 2 ^ 32 →
      Stores set namev v img ∧
        ∃ t', CatalogFile ((set >>= fun _ => pure PUnit.unit).run Access.handle img).2 t' := by
    intro set namev v hreturns hlength
    have hafter : ((set >>= fun _ => pure PUnit.unit).run Access.handle img).2 =
        fileAfter set img :=
      Program.run_bind_ret_snd set (fun _ => PUnit.unit) img
    rw [hafter] at hlength ⊢
    exact h.stores hreturns hlength
  cases op with
  | append new =>
    exact ⟨trivial, hother (returns_append h fun img' _ h' _ => .ret ⟨t, h'.file⟩) hlimit⟩
  | objectlistSetItem listOffs n value =>
    have hreturns := h.returns_setItem (hknown _ List.mem_cons_self) n value
    exact ⟨trivial, hother (hreturns.bind fun _ img' h' => .ret ⟨t, h'.file⟩) hlimit⟩
  | overwriteUint32 offs value =>
    have hreturns := h.returns_overwrite (.uint32 value) (hknown _ List.mem_cons_self) nofun nofun
      nofun
    exact ⟨trivial, hother (hreturns.mono fun _ img' h' => ⟨t, h'.file⟩) hlimit⟩
  | overwriteBoolean offs value =>
    have hreturns := h.returns_overwrite (.boolean value) (hknown _ List.mem_cons_self) nofun nofun
      nofun
    exact ⟨trivial, hother (hreturns.mono fun _ img' h' => ⟨t, h'.file⟩) hlimit⟩
  | catalogSet catalogName objectName value =>
    cases catalogName with
    | none => cases hstep
    | some c =>
      cases objectName with
      | none => cases hstep
      | some o =>
        obtain ⟨hvalue, henter⟩ := hstep
        exact hset (h.returns_set hvalue (h.plainAt_eq_zero henter)) hlimit
  | catalogVset namev value =>
    obtain ⟨hvalue, henter⟩ := hstep
    cases namev with
    | nil =>
      refine ⟨fun hne => absurd rfl hne, hother ?_ hlimit⟩
      exact .bind_run h.run_loadRoot (.ret ⟨t, h⟩)
    | cons n namev =>
      have hplain : ∀ q r, n :: namev = q ++ r → r ≠ [] → t.plainAt 0 q = 0 := by
        intro q r hnames hr
        cases q with
        | nil => exact plainAt_nil t
        | cons m q =>
          exact h.plainAt_eq_zero (henter (m :: q) r hnames (List.cons_ne_nil _ _) hr)
      obtain ⟨hstores, hfile⟩ := hset (h.returns_vset hvalue (List.cons_ne_nil _ _) hplain) hlimit
      exact ⟨fun _ => hstores, hfile⟩
  | setInodestat dev ino offs last result istat =>
    have hlast := hknown last (List.mem_cons_of_mem _ List.mem_cons_self)
    have hreturns := h.returns_setInodestat hsound dev ino (hknown _ List.mem_cons_self) hlast
      result istat (h.plainAt_eq_zero hstep)
    exact ⟨trivial, hother (hreturns.bind fun _ img' h' => .ret h') hlimit⟩

theorem CatalogFile.run (h : CatalogFile img t) (hsound : SoundFile img) {ops : List RuletreeOp}
    (hknown : KnownArgs img ops) (hsteps : EachStep CatalogStep img ops)
    (hlimit : (runOps img ops).length < 2 ^ 32) : EachStep StoreLaw img ops := by
  induction ops generalizing img t with
  | nil => trivial
  | cons op ops ih =>
    have hlength : (op.program.run Access.handle img).2.length < 2 ^ 32 :=
      Nat.lt_of_le_of_lt (length_le_runOps _ ops) hlimit
    obtain ⟨hlaw, t', h'⟩ := h.step hsound hknown.1 hsteps.1 hlength
    have hgrows := ((RuletreeOp.runs hsound hknown.1).sound (rely_of_length _ hlength)).2.1
    exact ⟨hlaw, ih h' (hgrows.sound hsound) hknown.2 hsteps.2 hlimit⟩

end Law

theorem catalogFile_create (maxSize : BitVec 32) (minMmapAddr : BitVec 64)
    (minClientSocketFd : BitVec 32) :
    CatalogFile (createRuletreeFile maxSize minMmapAddr minClientSocketFd) nil where
  laid := (soundFile_create maxSize minMmapAddr minClientSocketFd).laid
  rep := trivial
  root := word_of_slice rfl
  nodup := List.nodup_nil

/-- What is stored in the catalogs is found there, and changes nothing else, in every run of
the rule tree whose values are no catalogs and whose names lead through catalogs. -/
theorem catalog_store_law (maxSize : BitVec 32) (minMmapAddr : BitVec 64)
    (minClientSocketFd : BitVec 32) (ops : List RuletreeOp)
    (hknown : KnownArgs (createRuletreeFile maxSize minMmapAddr minClientSocketFd) ops)
    (hsteps : EachStep CatalogStep (createRuletreeFile maxSize minMmapAddr minClientSocketFd) ops)
    (hlimit : (runOps (createRuletreeFile maxSize minMmapAddr minClientSocketFd) ops).length ≤
      maxSize.toNat) :
    EachStep StoreLaw (createRuletreeFile maxSize minMmapAddr minClientSocketFd) ops :=
  (catalogFile_create maxSize minMmapAddr minClientSocketFd).run
    (soundFile_create maxSize minMmapAddr minClientSocketFd) hknown hsteps
    (Nat.lt_of_le_of_lt hlimit maxSize.isLt)

def textB : CText := ⟨[0x62], by decide⟩

/-- A boolean is stored with the names `a` and `b`. -/
theorem nested_boolean_stored :
    Stores (catalogVset [textA, textB] 40) [textA, textB] 40
      (runOps (createRuletreeFile 4096 0 0) [.append (.boolean 1)]) := by
  have hobject : ObjectIn (Image.append (createRuletreeFile 4096 0 0) (.boolean 1)) 40 _ :=
    (soundFile_create 4096 0 0).laid.appended (by decide +kernel)
  have hlaw := catalog_store_law 4096 0 0 [.append (.boolean 1), .catalogVset [textA, textB] 40]
    ⟨nofun, fun offs hoffs => ?_, trivial⟩
    ⟨trivial, ⟨⟨_, hobject, nofun⟩, fun q r hnames hq hr => ?_⟩,
      trivial⟩ (by decide +kernel)
  · exact hlaw.2.1 (List.cons_ne_nil _ _)
  · obtain rfl := List.mem_singleton.1 hoffs
    exact ⟨_, hobject⟩
  · -- the only beginning is the first name, and nothing is there yet
    cases q with
    | nil => exact absurd rfl hq
    | cons n q =>
      cases q with
      | nil =>
        cases hnames
        exact ⟨0, by decide +kernel, .inl rfl⟩
      | cons n' q =>
        have hrest := congrArg List.tail (congrArg List.tail hnames)
        have hnil : q ++ r = [] := hrest.symm
        exact absurd (List.append_eq_nil_iff.1 hnil).2 hr

/-- Names below the name of a boolean: success is reported, and there is no value. And a catalog
with two names: a value changes with that of other names. -/
theorem orphan_and_shared_catalogs :
    (resultOf (catalogVset [textA, textB] 40) (runOps (createRuletreeFile 4096 0 0)
        [.append (.boolean 1), .catalogVset [textA] 40]) = .ok true ∧
      resultOf (catalogVget [textA, textB]) (runOps (createRuletreeFile 4096 0 0)
        [.append (.boolean 1), .catalogVset [textA] 40, .catalogVset [textA, textB] 40]) = .ok 0) ∧
    (resultOf (catalogVget [textA, textB]) (runOps (createRuletreeFile 4096 0 0)
        [.append (.boolean 1), .append (.boolean 0), .catalogVset [textA, textB] 40,
          .catalogVset [textB] 112]) = .ok 40 ∧
      resultOf (catalogVset [textB, textB] 52) (runOps (createRuletreeFile 4096 0 0)
        [.append (.boolean 1), .append (.boolean 0), .catalogVset [textA, textB] 40,
          .catalogVset [textB] 112]) = .ok true ∧
      resultOf (catalogVget [textA, textB]) (runOps (createRuletreeFile 4096 0 0)
        [.append (.boolean 1), .append (.boolean 0), .catalogVset [textA, textB] 40,
          .catalogVset [textB] 112, .catalogVset [textB, textB] 52]) = .ok 52) := by
  refine ⟨⟨?_, ?_⟩, ?_, ?_, ?_⟩
  · decide +kernel
  · decide +kernel
  · decide +kernel
  · decide +kernel
  · decide +kernel

end Scratchbox
