import Mathlib.Data.List.Perm.Subperm
import Scratchbox.Lib.NameTree
import Scratchbox.RuletreeObjects

/-!
# The catalogs of the rule tree

The entries of the catalogs in the file are a tree of names (`CatalogFile`), as long as no
catalog is the value of two entries. The writes of the catalog functions are the changes of
that tree, and `run_catalogVget` says that the lookup by a vector of names is the lookup in the
tree.
-/

namespace Scratchbox

open Bytes RecordFormat NameTree Program

/-! ## Entries -/

def EntryIn (img : Image) (offs : Offset) (name : CText) (value next : Offset) : Prop :=
  ∃ o, ObjectIn img offs.toNat o ∧ o.type = .catalog ∧ HasName img (Image.word o.body 0) name ∧
    Image.word o.body 4 = value ∧ Image.word o.body 8 = next

/-- The offset of an object that is no catalog entry. The header is one, so zero is too. -/
def LeafValue (img : Image) (offs : Offset) : Prop :=
  ∃ o, ObjectIn img offs.toNat o ∧ o.type ≠ .catalog

/-- An entry with its plain value. -/
def CellIn (img : Image) (offs : Offset) (cell : Cell CText Offset) : Prop :=
  EntryIn img offs cell.name cell.value cell.next ∧ LeafValue img cell.plain

structure CatalogFile (img : Image) (t : NameTree CText Offset) : Prop where
  laid : WellLaid img
  rep : t.Rep 0 (CellIn img)
  root : Image.rootCatalog img = t.head 0
  nodup : t.addrs.Nodup

section Entries

variable {img img' : Image} {offs value next : Offset} {name : CText} {o : RawObject}

theorem LeafValue.grows (h : LeafValue img offs) (hgrows : Grows img img') :
    LeafValue img' offs := by
  obtain ⟨o, ho, htype⟩ := h
  obtain ⟨o', ho', hshape⟩ := hgrows.objectIn ho
  exact ⟨o', ho', by rw [hshape.type]; exact htype⟩

theorem WellLaid.leafValue_zero (h : WellLaid img) : LeafValue img 0 := by
  obtain ⟨o, ho, htype⟩ := h.hasHeader
  exact ⟨o, ho, by rw [htype]; exact nofun⟩

theorem EntryIn.hasObject (h : EntryIn img offs name value next) : HasObject img offs .catalog := by
  obtain ⟨o, ho, htype, -⟩ := h
  exact ⟨o, ho, htype⟩

theorem EntryIn.toNat_ne_zero (h : EntryIn img offs name value next) : offs.toNat ≠ 0 := by
  obtain ⟨o, ho, htype, -⟩ := h
  exact ho.ne_zero (by rw [htype]; exact nofun)

theorem EntryIn.ne_zero (h : EntryIn img offs name value next) : offs ≠ 0 := by
  rintro rfl
  exact h.toNat_ne_zero rfl

theorem length_catalog (htype : o.type = .catalog) : o.body.length = 12 := by
  rw [o.length_body, htype]
  rfl

section

variable (h : EntryIn img offs name value next)

include h

theorem EntryIn.value_eq :
    Image.word img (offs.toNat + 12) = value := by
  obtain ⟨o, ho, htype, -, hvalue, -⟩ := h
  rw [← hvalue]
  exact ho.word_eq (k := 4) (by rw [length_catalog htype]; decide)

theorem EntryIn.next_eq :
    Image.word img (offs.toNat + 16) = next := by
  obtain ⟨o, ho, htype, -, -, hnext⟩ := h
  rw [← hnext]
  exact ho.word_eq (k := 8) (Nat.le_of_eq (length_catalog htype).symm)

theorem EntryIn.append {new : NewObject}
    (hlimit : (Image.append img new).length < 2 ^ 32) :
    EntryIn (Image.append img new) offs name value next := by
  obtain ⟨o, ho, htype, hname, hfields⟩ := h
  exact ⟨o, ho.append (by rw [htype]; exact nofun) hlimit, htype, hname.grows (grows_append hlimit),
    hfields⟩

theorem EntryIn.store_other {p : Nat} {other : RawObject}
    (hother : ObjectIn img p other) {field : FieldStore} (hfits : field.Fits other)
    (hne : offs.toNat ≠ p) :
    EntryIn (patch img (p + field.place) field.data) offs name value next := by
  obtain ⟨o, ho, htype, hname, hfields⟩ := h
  exact ⟨o, hother.store_other hfits ho hne, htype, hname.grows (grows_store hother hfits), hfields⟩

end

theorem fits_catalog {field : FieldStore} (hfield : field.type = .catalog)
    (htype : o.type = .catalog) : field.Fits o :=
  FieldStore.fits_of_type (hfield.trans htype.symm) (by rw [htype]; exact nofun)

theorem EntryIn.store_value (h : EntryIn img offs name value next) (v : Offset) :
    EntryIn (patch img (offs.toNat + 12) (wordBytes v)) offs name v next := by
  obtain ⟨o, ho, htype, hname, -, hnext⟩ := h
  have hfits : (FieldStore.catValue v).Fits o := fits_catalog rfl htype
  have hlength : 4 + 4 ≤ o.body.length := by rw [length_catalog htype]; decide
  refine ⟨_, ho.store_self hfits, htype, ?_, ?_, ?_⟩
  · show HasName _ (Image.word (patch o.body 4 (wordBytes v)) 0) name
    rw [word_patch_before hlength (by decide)]
    exact hname.grows (grows_store ho hfits)
  · exact word_patch_self hlength
  · exact (word_patch_behind hlength (by decide)).trans hnext

theorem EntryIn.store_next (h : EntryIn img offs name value next) (v : Offset) :
    EntryIn (patch img (offs.toNat + 16) (wordBytes v)) offs name value v := by
  obtain ⟨o, ho, htype, hname, hvalue, -⟩ := h
  have hfits : (FieldStore.catNext v).Fits o := fits_catalog rfl htype
  have hlength : 8 + 4 ≤ o.body.length := Nat.le_of_eq (length_catalog htype).symm
  refine ⟨_, ho.store_self hfits, htype, ?_, ?_, ?_⟩
  · show HasName _ (Image.word (patch o.body 8 (wordBytes v)) 0) name
    rw [word_patch_before hlength (by decide)]
    exact hname.grows (grows_store ho hfits)
  · exact (word_patch_before hlength (by decide)).trans hvalue
  · exact word_patch_self hlength

end Entries

/-! ## Changes of the tree -/

/-- The file after a change: the objects are kept, and the catalogs are another tree. -/
structure Becomes (img img' : Image) (t : NameTree CText Offset) : Prop where
  grows : Grows img img'
  file : CatalogFile img' t

theorem Becomes.trans {img img' img'' : Image} {t t' : NameTree CText Offset}
    (h : Becomes img img' t) (h' : Becomes img' img'' t') : Becomes img img'' t' :=
  ⟨h.grows.trans h'.grows, h'.file⟩

section Changes

variable {img : Image} {t : NameTree CText Offset} {p : List CText}
  {node : Node CText Offset} {addr : Offset} {n : CText} {o : RawObject} {new : NewObject}

theorem CatalogFile.cell (h : CatalogFile img t) (hnode : t.entryAt p = some node) :
    ∃ name next, EntryIn img node.addr name (field node.value node.sub) next ∧
      LeafValue img (plain 0 node.value node.sub) := by
  obtain ⟨⟨c, ⟨hentry, hleaf⟩, hvalue, hplain⟩, -⟩ := h.rep.entryAt hnode
  rw [hvalue] at hentry
  rw [hplain] at hleaf
  exact ⟨c.name, c.next, hentry, hleaf⟩

theorem entryIn_of_rep (h : t.Rep 0 (CellIn img)) :
    ∀ a ∈ t.addrs, ∃ name value next, EntryIn img a name value next := by
  induction t with
  | nil => exact nofun
  | entry b m value sub next ihsub ihnext =>
    obtain ⟨⟨hentry, -⟩, hsub, hnext⟩ := h
    intro a ha
    rcases List.mem_cons.1 ha with rfl | ha
    · exact ⟨_, _, _, hentry⟩
    · rcases List.mem_append.1 ha with ha | ha
      · exact ihsub hsub a ha
      · exact ihnext hnext a ha

theorem rootCatalog_append (hheader : 40 ≤ img.length)
    (hlimit : (Image.append img new).length < 2 ^ 32) :
    Image.rootCatalog (Image.append img new) = Image.rootCatalog img := by
  have hfits := note_fits (Nat.le_trans (by decide) hheader)
  unfold Image.rootCatalog Image.word
  rw [append_eq hheader (contents_lt hlimit), slice_append_left, slice_patch_before]
  · exact Nat.le_trans (by decide) hheader
  · decide
  · rw [length_patch (hfits _)]
    exact Nat.le_trans (by decide) hheader

theorem CatalogFile.append (h : CatalogFile img t)
    (hlimit : (Image.append img new).length < 2 ^ 32) : Becomes img (Image.append img new) t := by
  have hgrows := grows_append hlimit
  refine ⟨hgrows, h.laid.grows hgrows, ?_, ?_, h.nodup⟩
  · exact h.rep.mono fun _ _ _ hcell => ⟨hcell.1.append hlimit, hcell.2.grows hgrows⟩
  · obtain ⟨objs, hlaid⟩ := h.laid
    rw [rootCatalog_append hlaid.header_le hlimit, h.root]

theorem rootCatalog_store {q : Nat} (ho : ObjectIn img q o) (htype : o.type ≠ .filehdr)
    {field : FieldStore} (hfits : field.Fits o) :
    Image.rootCatalog (patch img (q + field.place) field.data) = Image.rootCatalog img := by
  have hq := ho.header_le htype
  obtain ⟨objs, hlaid, hat⟩ := ho
  have hend := hlaid.end_le hat
  have hfit := hfits.fits
  unfold Image.rootCatalog Image.word
  rw [slice_patch_before (by omega) (by omega)]

theorem CellIn.store_other {a b : Offset} {c : Cell CText Offset} (h : CellIn img a c)
    (ho : ObjectIn img b.toNat o) {field : FieldStore} (hfits : field.Fits o) (hne : a ≠ b) :
    CellIn (patch img (b.toNat + field.place) field.data) a c :=
  ⟨h.1.store_other ho hfits fun heq => hne (BitVec.eq_of_toNat_eq heq),
    h.2.grows (grows_store ho hfits)⟩

theorem CatalogFile.store_other (h : CatalogFile img t) {b : Offset} (ho : ObjectIn img b.toNat o)
    {field : FieldStore} (hfits : field.Fits o) (hcatalog : o.type ≠ .catalog)
    (hheader : o.type ≠ .filehdr) :
    Becomes img (patch img (b.toNat + field.place) field.data) t := by
  have hgrows := grows_store ho hfits
  refine ⟨hgrows, h.laid.grows hgrows, ?_, ?_, h.nodup⟩
  · refine h.rep.mono fun a ha c hcell => hcell.store_other ho hfits ?_
    rintro rfl
    obtain ⟨_, _, _, o', ho', htype, -⟩ := entryIn_of_rep h.rep a ha
    cases ho.unique ho'
    exact hcatalog htype
  · rw [rootCatalog_store ho hheader hfits, h.root]

theorem CatalogFile.setValue (h : CatalogFile img t) (hnode : t.entryAt p = some node) {v : Offset}
    (hv : LeafValue img v) :
    Becomes img (patch img (node.addr.toNat + 12) (wordBytes v)) (t.setValue v p) := by
  obtain ⟨_, _, ⟨o, ho, htype, -⟩, -⟩ := h.cell hnode
  have hfits : (FieldStore.catValue v).Fits o := fits_catalog rfl htype
  have hgrows := grows_store ho hfits
  refine ⟨hgrows, h.laid.grows hgrows, ?_, ?_, nodup_setValue hnode h.nodup v⟩
  · refine h.rep.setValue h.nodup hnode (fun c hcell => ?_)
      fun a _ hne c hcell => hcell.store_other ho hfits hne
    exact ⟨hcell.1.store_value v, hv.grows hgrows⟩
  · rw [NameTree.setValue, head_update, ← h.root]
    have hkept := rootCatalog_store ho (by rw [htype]; decide) hfits
    exact hkept

theorem CatalogFile.grow_first (h : CatalogFile img t) (hnode : t.entryAt p = some node)
    (hempty : node.sub = nil) (hplain : plain 0 node.value node.sub = 0)
    (hnew : EntryIn img addr n 0 0) (hfresh : addr ∉ t.addrs) :
    Becomes img (patch img (node.addr.toNat + 12) (wordBytes addr)) (t.grow 0 addr n p) := by
  obtain ⟨_, _, ⟨o, ho, htype, -⟩, -⟩ := h.cell hnode
  have hfits : (FieldStore.catValue addr).Fits o := fits_catalog rfl htype
  have hgrows := grows_store ho hfits
  have hzero := h.laid.leafValue_zero
  have hother : addr ≠ node.addr := fun heq => hfresh (heq ▸ addr_mem hnode)
  have hopen : t.Open 0 p := open_of_entryAt hnode hplain
  have hcell : CellIn img addr ⟨n, 0, 0, 0⟩ := ⟨hnew, hzero⟩
  refine ⟨hgrows, h.laid.grows hgrows, ?_, ?_, nodup_grow hopen h.nodup hfresh n⟩
  · refine h.rep.grow_first h.nodup hnode hempty (fun c hcell => ?_)
      (fun a _ hne c hcell => hcell.store_other ho hfits hne) (hcell.store_other ho hfits hother)
    exact ⟨hcell.1.store_value addr, hzero.grows hgrows⟩
  · rw [head_grow (ne_nil_of_entryAt hnode), ← h.root]
    have hkept := rootCatalog_store ho (by rw [htype]; decide) hfits
    exact hkept

theorem CatalogFile.grow_link (h : CatalogFile img t) (hopen : t.Open 0 p)
    (hcatalog : t.catalogAt p ≠ nil) (hnew : EntryIn img addr n 0 0) (hfresh : addr ∉ t.addrs) :
    Becomes img (patch img (((t.catalogAt p).lastAddr 0).toNat + 16) (wordBytes addr))
      (t.grow 0 addr n p) := by
  have hmem := (catalogAt_addrs t p).1 _ (lastAddr_mem 0 hcatalog)
  obtain ⟨_, _, _, ⟨o, ho, htype, -⟩⟩ := entryIn_of_rep h.rep _ hmem
  have hfits : (FieldStore.catNext addr).Fits o := fits_catalog rfl htype
  have hgrows := grows_store ho hfits
  have hother : addr ≠ (t.catalogAt p).lastAddr 0 := fun heq => hfresh (heq ▸ hmem)
  have hcell : CellIn img addr ⟨n, 0, 0, 0⟩ := ⟨hnew, h.laid.leafValue_zero⟩
  refine ⟨hgrows, h.laid.grows hgrows, ?_, ?_, nodup_grow hopen h.nodup hfresh n⟩
  · refine h.rep.grow_link h.nodup hopen hcatalog (fun c hcell => ?_)
      (fun a _ hne c hcell => hcell.store_other ho hfits hne) (hcell.store_other ho hfits hother)
    exact ⟨hcell.1.store_next addr, hcell.2.grows hgrows⟩
  · have ht : t ≠ nil := by
      rintro rfl
      cases hmem
    rw [head_grow ht, ← h.root]
    have hkept := rootCatalog_store ho (by rw [htype]; decide) hfits
    exact hkept

theorem CatalogFile.grow_root (h : CatalogFile img nil) (hnew : EntryIn img addr n 0 0) :
    Becomes img (patch img 12 (wordBytes addr)) (nil.grow 0 addr n []) := by
  obtain ⟨o, ho, htype⟩ := h.laid.hasHeader
  have hfits : (FieldStore.rootCatalog addr).Fits o :=
    FieldStore.fits_of_type htype.symm (by rw [htype]; exact nofun)
  have hgrows : Grows img (patch img 12 (wordBytes addr)) := grows_store ho hfits
  have hcell : CellIn img addr ⟨n, 0, 0, 0⟩ := ⟨hnew, h.laid.leafValue_zero⟩
  refine ⟨hgrows, h.laid.grows hgrows, ⟨?_, trivial, trivial⟩, ?_, List.nodup_singleton addr⟩
  · exact hcell.store_other ho hfits hnew.ne_zero
  · obtain ⟨objs, hlaid⟩ := h.laid
    exact word_patch_self (Nat.le_trans (by decide) hlaid.header_le)

end Changes

/-! ## Lookups -/

section Lookups

variable {img : Image} {t c : NameTree CText Offset}

variable {offs : Offset} {p : List CText} {start : Offset} {value next : Offset} {rounds : Nat}

theorem EntryIn.hasObjectPtr {name : CText}
    (h : EntryIn img offs name value next) : Image.hasObjectPtr img .catalog offs = true :=
  h.hasObject.hasObjectPtr_iff.2 rfl

theorem LeafValue.hasObjectPtr (h : LeafValue img offs) :
    Image.hasObjectPtr img .catalog offs = false := by
  obtain ⟨o, ho, htype⟩ := h
  have hobject : HasObject img offs o.type := ⟨o, ho, rfl⟩
  rw [Bool.eq_false_iff]
  exact fun hptr => htype (hobject.hasObjectPtr_iff.1 hptr).symm

theorem EntryIn.run_entryHasName {m : CText} (h : EntryIn img offs m value next) (name : CText) :
    (entryHasName name (Image.word img (offs.toNat + 8))).run Access.handle img =
      (.ok (decide (m = name)), img) := by
  obtain ⟨o, ho, htype, ⟨s, hs, hstring, hbody⟩, -⟩ := h
  have hword : Image.word img (offs.toNat + 8) = Image.word o.body 0 := ho.size_eq
  have hsize : (Image.word s.body 0).toNat = m.bytes.length := by
    have hlength := congrArg List.length hbody
    rw [List.length_drop, s.length_body, hstring, List.length_append] at hlength
    simp only [ObjectType.bodyLength, List.length_cons, List.length_nil] at hlength
    omega
  have hsame : ((Image.word s.body 0).toNat = name.bytes.length ∧ m.bytes = name.bytes) ↔
      m = name := by
    rw [hsize]
    constructor
    · rintro ⟨-, hbytes⟩
      cases m
      cases name
      cases hbytes
      rfl
    · rintro rfl
      exact ⟨rfl, rfl⟩
  rw [hword, entryHasName, run_bind_of_ok (run_offsetToRuletreeStringPtr hs hstring hbody)]
  show (Except.ok (decide ((Image.word s.body 0).toNat = name.bytes.length ∧ m.bytes = name.bytes)),
    img) = _
  rw [decide_eq_decide.2 hsame]

theorem head_ne_zero (hrep : c.Rep 0 (CellIn img)) (hc : c ≠ nil) : c.head 0 ≠ 0 := by
  cases c with
  | nil => exact absurd rfl hc
  | entry addr m value sub next => exact hrep.1.1.ne_zero

theorem run_findCatalogLoop (name : CText) (hc : c ≠ nil) (hrep : c.Rep 0 (CellIn img))
    (hrounds : c.chainLength ≤ rounds) :
    (findCatalogLoop name rounds (c.head 0)).run Access.handle img =
      (.ok ((c.entryAt [name]).map Node.addr), img) := by
  induction c generalizing rounds with
  | nil => exact absurd rfl hc
  | entry addr m value sub next _ ihnext =>
    have hentry : EntryIn img addr m (field value sub) (next.head 0) := hrep.1.1
    have hnext := hrep.2.2
    cases rounds with
    | zero => cases hrounds
    | succ rounds =>
      refine (run_bind_of_ok (run_look hentry.hasObjectPtr)).trans ?_
      refine (run_bind_of_ok (run_load rfl)).trans ?_
      refine (run_bind_of_ok (hentry.run_entryHasName name)).trans ?_
      by_cases hm : m = name
      · rw [decide_eq_true hm, hm, entryAt_here]
        rfl
      · rw [decide_eq_false hm, entryAt_behind hm]
        refine (run_bind_of_ok (run_load hentry.next_eq)).trans ?_
        cases next with
        | nil => rfl
        | entry addr' m' value' sub' next' =>
          rw [if_neg (head_ne_zero hnext nofun)]
          exact ihnext nofun hnext (Nat.le_of_succ_le_succ hrounds)

theorem run_findLastLoop (hc : c ≠ nil) (hrep : c.Rep 0 (CellIn img))
    (hrounds : c.chainLength ≤ rounds) :
    (findLastLoop rounds (c.head 0)).run Access.handle img = (.ok (c.lastAddr 0), img) := by
  induction c generalizing rounds with
  | nil => exact absurd rfl hc
  | entry addr m value sub next _ ihnext =>
    have hentry : EntryIn img addr m (field value sub) (next.head 0) := hrep.1.1
    have hnext := hrep.2.2
    cases rounds with
    | zero => cases hrounds
    | succ rounds =>
      refine (run_bind_of_ok (run_load hentry.next_eq)).trans ?_
      cases next with
      | nil => rfl
      | entry addr' m' value' sub' next' =>
        have hfirst : EntryIn img addr' m' (field value' sub') (next'.head 0) := hnext.1.1
        rw [if_neg (head_ne_zero hnext nofun)]
        refine (run_bind_of_ok (run_look hfirst.hasObjectPtr)).trans ?_
        exact ihnext nofun hnext (Nat.le_of_succ_le_succ hrounds)

/-- The entries of a catalog are at different offsets, so there are fewer than bytes. -/
theorem CatalogFile.chainLength_le (h : CatalogFile img t) (p : List CText) :
    (t.catalogAt p).chainLength ≤ (Image.fileSize img).toNat := by
  obtain ⟨objs, hlaid⟩ := h.laid
  obtain ⟨hsubset, hnodup⟩ := catalogAt_addrs t p
  have hlt : ∀ a ∈ (t.catalogAt p).addrs.map BitVec.toNat, a ∈ List.range img.length := by
    intro n hn
    obtain ⟨a, ha, rfl⟩ := List.mem_map.1 hn
    obtain ⟨_, _, _, o, ho, -⟩ := entryIn_of_rep h.rep a (hsubset a ha)
    exact List.mem_range.2 ho.lt_length
  have hdistinct : ((t.catalogAt p).addrs.map BitVec.toNat).Nodup :=
    (hnodup h.nodup).map fun _ _ heq => BitVec.eq_of_toNat_eq heq
  have hle := (List.Nodup.subperm hdistinct hlt).length_le
  rw [List.length_map, List.length_range] at hle
  rw [hlaid.size]
  exact Nat.le_trans (NameTree.chainLength_le _) hle

/-- Where a lookup in the catalog at a path begins. -/
def StartsAt (t : NameTree CText Offset) (p : List CText) (start : Offset) : Prop :=
  (start = 0 ∧ p = []) ∨ (start = (t.catalogAt p).head 0 ∧ t.catalogAt p ≠ nil)

theorem CatalogFile.start_eq (h : CatalogFile img t) (hstart : StartsAt t p start) :
    (if start = 0 then Image.rootCatalog img else start) = (t.catalogAt p).head 0 := by
  rcases hstart with ⟨rfl, rfl⟩ | ⟨rfl, hne⟩
  · rw [if_pos rfl, h.root]
    rfl
  · rw [if_neg (head_ne_zero (h.rep.catalogAt p) hne)]

theorem CatalogFile.run_findCatalogEntry (h : CatalogFile img t) (hstart : StartsAt t p start)
    (name : CText) :
    (findCatalogEntry start (some name)).run Access.handle img =
      (.ok (((t.catalogAt p).entryAt [name]).map Node.addr), img) := by
  have hrep := h.rep.catalogAt p
  refine (run_bind_of_ok (run_load (v := Image.rootCatalog img) rfl)).trans ?_
  simp only [h.start_eq hstart]
  by_cases hempty : t.catalogAt p = nil
  · rw [hempty]
    rfl
  · rw [if_neg (head_ne_zero hrep hempty)]
    refine (run_bind_of_ok (run_load (v := Image.fileSize img) rfl)).trans ?_
    exact run_findCatalogLoop name hempty hrep (h.chainLength_le p)

theorem CatalogFile.run_findLastCatalogEntry (h : CatalogFile img t) (hstart : StartsAt t p start)
    (hcatalog : t.catalogAt p ≠ nil) :
    (findLastCatalogEntry start).run Access.handle img =
      (.ok (some ((t.catalogAt p).lastAddr 0)), img) := by
  have hrep := h.rep.catalogAt p
  have hfirst : Image.hasObjectPtr img .catalog ((t.catalogAt p).head 0) = true := by
    revert hcatalog hrep
    cases t.catalogAt p with
    | nil => exact fun hcatalog => absurd rfl hcatalog
    | entry addr m value sub next => exact fun _ hrep => hrep.1.1.hasObjectPtr
  refine (run_bind_of_ok (run_load (v := Image.rootCatalog img) rfl)).trans ?_
  simp only [h.start_eq hstart]
  rw [if_neg (head_ne_zero hrep hcatalog)]
  refine (run_bind_of_ok (run_look hfirst)).trans ?_
  refine (run_bind_of_ok (run_load (v := Image.fileSize img) rfl)).trans ?_
  exact run_bind_of_ok (run_findLastLoop hcatalog hrep (h.chainLength_le p))

theorem CatalogFile.run_findLast_nil (h : CatalogFile img nil) :
    (findLastCatalogEntry 0).run Access.handle img = (.ok none, img) := by
  have hroot : Image.word img 12 = 0 := h.root
  exact run_bind_of_ok (run_load (v := 0) hroot)

theorem LeafValue.run_findCatalogEntry (hlaid : WellLaid img) (h : LeafValue img start)
    (hstart : start ≠ 0) (name : CText) :
    (findCatalogEntry start (some name)).run Access.handle img = (.ok none, img) := by
  have hrounds : ∃ rounds, (Image.fileSize img).toNat = rounds + 1 := by
    obtain ⟨objs, hlaid⟩ := hlaid
    refine Nat.exists_eq_add_one_of_ne_zero (Nat.ne_of_gt ?_)
    rw [hlaid.size]
    exact Nat.lt_of_lt_of_le (by decide) hlaid.header_le
  refine (run_bind_of_ok (run_load (v := Image.rootCatalog img) rfl)).trans ?_
  simp only [if_neg hstart]
  refine (run_bind_of_ok (run_load (v := Image.fileSize img) rfl)).trans ?_
  obtain ⟨rounds, hrounds⟩ := hrounds
  rw [hrounds]
  exact run_bind_of_ok (run_look h.hasObjectPtr)

theorem LeafValue.run_catalogVgetLoop (hlaid : WellLaid img) (h : LeafValue img start)
    (hstart : start ≠ 0) (name : CText) (namev : List CText) :
    (catalogVgetLoop start (name :: namev)).run Access.handle img = (.ok 0, img) := by
  have hfind : (catalogFindValueFromCatalog start (some name)).run Access.handle img =
      (.ok 0, img) := run_bind_of_ok (h.run_findCatalogEntry hlaid hstart name)
  exact run_bind_of_ok hfind

theorem CatalogFile.run_findValue (h : CatalogFile img t) (hopen : t.Open 0 p)
    (hstart : StartsAt t p start) (name : CText) :
    (catalogFindValueFromCatalog start (some name)).run Access.handle img =
      (.ok (t.get 0 (p ++ [name])), img) := by
  have hbelow := entryAt_catalogAt hopen (List.cons_ne_nil name [])
  refine (run_bind_of_ok (h.run_findCatalogEntry hstart name)).trans ?_
  rw [← hbelow, NameTree.get, seenAt]
  cases hnode : t.entryAt (p ++ [name]) with
  | none => rfl
  | some node =>
    obtain ⟨_, _, hentry, -⟩ := h.cell hnode
    exact run_load hentry.value_eq

theorem CatalogFile.run_catalogVgetLoop (h : CatalogFile img t) (hopen : t.Open 0 p)
    (hstart : StartsAt t p start) (name : CText) (namev : List CText) :
    (catalogVgetLoop start (name :: namev)).run Access.handle img =
      (.ok (t.get 0 (p ++ name :: namev)), img) := by
  induction namev generalizing p start name with
  | nil =>
    refine (run_bind_of_ok (h.run_findValue hopen hstart name)).trans ?_
    generalize t.get 0 (p ++ [name]) = value
    split
    · rename_i hzero
      rw [hzero]
      rfl
    · rfl
  | cons name' namev ih =>
    refine (run_bind_of_ok (h.run_findValue hopen hstart name)).trans ?_
    rw [NameTree.get, NameTree.get, seenAt, seenAt]
    cases hnode : t.entryAt (p ++ [name]) with
    | none =>
      -- without the first name there is no value for the others
      have hrest : t.entryAt (p ++ name :: name' :: namev) = none := by
        rw [entryAt_catalogAt hopen (List.cons_ne_nil _ _)] at hnode ⊢
        exact entryAt_eq_none hnode _
      rw [hrest]
      rfl
    | some node =>
      obtain ⟨_, _, hentry, hleaf⟩ := h.cell hnode
      have hrest : t.entryAt (p ++ name :: name' :: namev) = node.sub.entryAt (name' :: namev) := by
        rw [← entryAt_append hnode (List.cons_ne_nil _ _), List.append_assoc]
        rfl
      rw [hrest]
      cases hsub : node.sub with
      | nil =>
        rw [hsub] at hleaf
        show run Access.handle (if field node.value node.sub = 0 then _ else
          catalogVgetLoop (field node.value node.sub) (name' :: namev)) img = (.ok 0, img)
        rw [hsub]
        split
        · rfl
        · rename_i hvalue
          exact hleaf.run_catalogVgetLoop h.laid hvalue name' namev
      | entry addr m value sub next =>
        have hplain : plain 0 node.value node.sub = 0 := by rw [hsub]; rfl
        have hcatalog : t.catalogAt (p ++ [name]) = node.sub := catalogAt_of_entryAt hnode
        have hvalue : addr = (t.catalogAt (p ++ [name])).head 0 := by rw [hcatalog, hsub]; rfl
        have hne : t.catalogAt (p ++ [name]) ≠ nil := by
          rw [hcatalog, hsub]
          intro heq
          cases heq
        have hloop := ih (open_of_entryAt hnode hplain) (.inr ⟨hvalue, hne⟩) name'
        rw [NameTree.get, seenAt, entryAt_append hnode (List.cons_ne_nil _ _), hsub] at hloop
        have haddr : addr ≠ 0 := by
          rw [hvalue]
          exact head_ne_zero (h.rep.catalogAt _) hne
        show run Access.handle (if field node.value node.sub = 0 then _ else
          catalogVgetLoop (field node.value node.sub) (name' :: namev)) img = _
        rw [hsub, field, if_neg haddr]
        exact hloop

theorem CatalogFile.run_catalogVget (h : CatalogFile img t) (namev : List CText) :
    (catalogVget namev).run Access.handle img = (.ok (t.get 0 namev), img) := by
  cases namev with
  | nil =>
    rw [NameTree.get, seenAt, entryAt_nil_path]
    rfl
  | cons name namev => exact h.run_catalogVgetLoop (p := []) trivial (.inl ⟨rfl, rfl⟩) name namev

end Lookups

end Scratchbox
