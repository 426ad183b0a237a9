import Scratchbox.RuletreeLayout

/-!
# Growth of the rule tree

What the operations of `rule_tree.c` do to a file that is a sequence of objects. They are
checked command by command: an operation that is given offsets of objects looks for objects
only where they begin, and each of its writes stays in one object of the right type. So all
objects keep their places and shapes (`Grows`), and all references of the file are to objects
(`RefsKnown`).
-/

namespace Scratchbox

open Bytes RecordFormat SearchTree

/-! ## Growth -/

/-- All objects keep their places and shapes. -/
def Grows (img img' : Image) : Prop :=
  ∀ objs, Laid img objs → ∃ objs', Laid img' objs' ∧
    ∀ p o, rawFormat.recordAt objs p = some o →
      ∃ o', rawFormat.recordAt objs' p = some o' ∧ o.SameShape o'

/-- The file is a sequence of objects. -/
def WellLaid (img : Image) : Prop := ∃ objs, Laid img objs

def HasObject (img : Image) (offs : Offset) (type : ObjectType) : Prop :=
  ∃ o, ObjectIn img offs.toNat o ∧ o.type = type

section Growth

variable {img img' img'' : Image} {p : Nat} {o : RawObject} {offs : Offset} {type : ObjectType}
  {new : NewObject}

theorem Grows.refl (img : Image) : Grows img img := fun objs h =>
  ⟨objs, h, fun _ o ho => ⟨o, ho, .refl o⟩⟩

theorem Grows.trans (h : Grows img img') (h' : Grows img' img'') : Grows img img'' := by
  intro objs hlaid
  obtain ⟨objs', hlaid', hkept⟩ := h objs hlaid
  obtain ⟨objs'', hlaid'', hkept'⟩ := h' objs' hlaid'
  refine ⟨objs'', hlaid'', fun p o ho => ?_⟩
  obtain ⟨o', ho', hshape⟩ := hkept p o ho
  obtain ⟨o'', ho'', hshape'⟩ := hkept' p o' ho'
  exact ⟨o'', ho'', hshape.trans hshape'⟩

theorem Grows.objectIn (h : Grows img img') (ho : ObjectIn img p o) :
    ∃ o', ObjectIn img' p o' ∧ o.SameShape o' := by
  obtain ⟨objs, hlaid, ho⟩ := ho
  obtain ⟨objs', hlaid', hkept⟩ := h objs hlaid
  obtain ⟨o', ho', hshape⟩ := hkept p o ho
  exact ⟨o', ⟨objs', hlaid', ho'⟩, hshape⟩

theorem WellLaid.grows (h : WellLaid img) (hgrows : Grows img img') : WellLaid img' := by
  obtain ⟨objs, hlaid⟩ := h
  obtain ⟨objs', hlaid', -⟩ := hgrows objs hlaid
  exact ⟨objs', hlaid'⟩

theorem HasObject.grows (h : HasObject img offs type) (hgrows : Grows img img') :
    HasObject img' offs type := by
  obtain ⟨o, ho, htype⟩ := h
  obtain ⟨o', ho', hshape⟩ := hgrows.objectIn ho
  exact ⟨o', ho', hshape.type.trans htype⟩

theorem WellLaid.hasHeader (h : WellLaid img) : HasObject img 0 .filehdr := by
  obtain ⟨objs, hlaid⟩ := h
  obtain ⟨hdr, hhdr, htype⟩ := hlaid.header
  exact ⟨hdr, ⟨objs, hlaid, hhdr⟩, htype⟩

theorem HasObject.hasObjectPtr_iff (h : HasObject img offs type) {type' : ObjectType} :
    Image.hasObjectPtr img type' offs = true ↔ type' = type := by
  obtain ⟨o, ⟨objs, hlaid, ho⟩, rfl⟩ := h
  exact hlaid.hasObjectPtr_iff ho

theorem ObjectIn.hasObject (h : ObjectIn img offs.toNat o)
    (hptr : Image.hasObjectPtr img type offs = true) : HasObject img offs type := by
  have hself : HasObject img offs o.type := ⟨o, h, rfl⟩
  rw [hself.hasObjectPtr_iff.1 hptr]
  exact hself

theorem grows_store {field : FieldStore} (ho : ObjectIn img p o) (hfits : field.Fits o) :
    Grows img (patch img (p + field.place) field.data) := by
  intro objs hlaid
  have hat := hlaid.objectIn_iff.1 ho
  have hshape := RawObject.sameShape_patchBody hfits.mutable
  refine ⟨_, hlaid.stored hat hfits, fun q other hother => ?_⟩
  by_cases hq : q = p
  · rw [hq, hat] at hother
    cases hother
    exact ⟨_, by rw [hq]; exact recordAt_setRecord_self hat, hshape⟩
  · exact ⟨other, by rw [recordAt_setRecord_of_ne hat hshape.length_encode hq, hother],
      .refl other⟩

theorem contents_lt (h : (Image.append img new).length < 2 ^ 32) :
    new.contents.length < 2 ^ 32 := by
  refine Nat.lt_of_le_of_lt (Nat.le_trans ?_ (length_le_patch _ _ _)) h
  rw [List.length_append]
  exact Nat.le_add_left _ _

/-- What an append leaves: the header with another size, the other objects as they are, and
the new object behind them. -/
structure AppendedTo (objs objs' : List RawObject) (last : Nat) (added : RawObject) : Prop where
  kept : ∀ p o, rawFormat.recordAt objs p = some o →
    ∃ o', rawFormat.recordAt objs' p = some o' ∧ o.SameShape o'
  others : ∀ p o, p ≠ 0 → rawFormat.recordAt objs p = some o → rawFormat.recordAt objs' p = some o
  atEnd : rawFormat.recordAt objs' last = some added
  onlyNew : ∀ p o, rawFormat.recordAt objs' p = some o →
    rawFormat.recordAt objs p = some o ∨ o = added ∨
    ∃ hdr, rawFormat.recordAt objs 0 = some hdr ∧ hdr.SameShape o ∧
      Image.word o.body 4 = Image.word hdr.body 4

theorem Laid.append_cases {objs : List RawObject} (h : Laid img objs)
    (hlimit : (Image.append img new).length < 2 ^ 32) :
    ∃ objs', Laid (Image.append img new) objs' ∧
      AppendedTo objs objs' img.length (new.raw (contents_lt hlimit)) := by
  have hlength := length_append_new h.header_le (contents_lt hlimit)
  obtain ⟨hdr, hdr', hhdr, hshape, hroot, hlaid⟩ :=
    h.appended (contents_lt hlimit) (by rw [← hlength]; exact hlimit)
  have hothers : ∀ p o, p ≠ 0 → rawFormat.recordAt objs p = some o →
      rawFormat.recordAt (rawFormat.setRecord objs 0 hdr' ++ [new.raw (contents_lt hlimit)]) p =
        some o :=
    fun p o hp ho =>
      recordAt_append_left (by rw [recordAt_setRecord_of_ne hhdr hshape.length_encode hp, ho]) _
  refine ⟨_, hlaid, fun p o ho => ?_, hothers, ?_, fun p o ho => ?_⟩
  · by_cases hp : p = 0
    · rw [hp, hhdr] at ho
      cases ho
      exact ⟨hdr', by rw [hp]; exact recordAt_append_left (recordAt_setRecord_self hhdr) _, hshape⟩
    · exact ⟨o, hothers p o hp ho, .refl o⟩
  · have hend : (rawFormat.encodeAll (rawFormat.setRecord objs 0 hdr')).length = img.length := by
      have hbytes := congrArg List.length hlaid.bytes
      rw [hlength, encodeAll_append, List.length_append, encodeAll_singleton] at hbytes
      exact (Nat.add_right_cancel hbytes).symm
    rw [← hend]
    exact recordAt_append_length _ _
  · rcases recordAt_append_cases ho with hold | ⟨-, rfl⟩
    · rcases recordAt_setRecord_cases hhdr hshape.length_encode hold with ⟨-, rfl⟩ | ⟨-, hold⟩
      · exact .inr (.inr ⟨hdr, hhdr, hshape, hroot⟩)
      · exact .inl hold
    · exact .inr (.inl rfl)

theorem grows_append (hlimit : (Image.append img new).length < 2 ^ 32) :
    Grows img (Image.append img new) := by
  intro objs hlaid
  obtain ⟨objs', hlaid', happended⟩ := hlaid.append_cases hlimit
  exact ⟨objs', hlaid', happended.kept⟩

theorem ObjectIn.wellLaid {p : Nat} {o : RawObject} (h : ObjectIn img p o) : WellLaid img := by
  obtain ⟨objs, hlaid, -⟩ := h
  exact ⟨objs, hlaid⟩

theorem WellLaid.length_lt (h : WellLaid img) : img.length < 2 ^ 32 := by
  obtain ⟨objs, hlaid⟩ := h
  exact hlaid.length_lt

theorem WellLaid.toNat_length (h : WellLaid img) :
    (BitVec.ofNat 32 img.length).toNat = img.length := by
  rw [BitVec.toNat_ofNat, Nat.mod_eq_of_lt h.length_lt]

theorem WellLaid.appended (h : WellLaid img) (hlimit : (Image.append img new).length < 2 ^ 32) :
    ObjectIn (Image.append img new) (BitVec.ofNat 32 img.length).toNat
      (new.raw (contents_lt hlimit)) := by
  rw [h.toNat_length]
  obtain ⟨objs, hlaid⟩ := h
  obtain ⟨objs', hlaid', happended⟩ := hlaid.append_cases hlimit
  exact ⟨objs', hlaid', happended.atEnd⟩

end Growth

/-! ## References -/

def ObjectType.refPlaces : ObjectType → List Nat
  | filehdr => [4]
  | catalog => [0, 4, 8]
  | bintree => [16, 20, 24]
  | _ => []

def FieldStore.ref : FieldStore → Option Offset
  | rootCatalog offs => some offs
  | catValue offs => some offs
  | catNext offs => some offs
  | linkLess offs => some offs
  | linkMore offs => some offs
  | inodeSimu _ => none
  | item _ _ => none
  | uint32 _ => none
  | boolean _ => none

def NewObject.refs : NewObject → List Offset
  | catalog nameOffs valueOffs nextEntryOffs => [nameOffs, valueOffs, nextEntryOffs]
  | bintree _ _ value => [value]
  | _ => []

/-- An object begins at the offset. The header of the file begins at zero. -/
def Known (img : Image) (offs : Offset) : Prop := ∃ o, ObjectIn img offs.toNat o

/-- All references of the file are to objects. -/
def RefsKnown (img : Image) : Prop :=
  ∀ p o, ObjectIn img p o → ∀ k ∈ o.type.refPlaces, Known img (Image.word o.body k)

/-- The file is a sequence of objects that refer to each other only. -/
structure SoundFile (img : Image) : Prop where
  laid : WellLaid img
  refs : RefsKnown img

section References

variable {img img' : Image} {offs : Offset} {type : ObjectType}

theorem Known.grows (h : Known img offs) (hgrows : Grows img img') : Known img' offs := by
  obtain ⟨o, ho⟩ := h
  obtain ⟨o', ho', -⟩ := hgrows.objectIn ho
  exact ⟨o', ho'⟩

theorem HasObject.known (h : HasObject img offs type) : Known img offs := by
  obtain ⟨o, ho, -⟩ := h
  exact ⟨o, ho⟩

theorem Known.hasObject (h : Known img offs) (hptr : Image.hasObjectPtr img type offs = true) :
    HasObject img offs type := by
  obtain ⟨o, ho⟩ := h
  exact ho.hasObject hptr

theorem Known.ref (h : Known img offs) : ∀ r, some offs = some r → Known img r := by
  intro r hr
  cases hr
  exact h

theorem WellLaid.known_zero (h : WellLaid img) : Known img 0 := h.hasHeader.known

variable {k : Nat} {body : List Byte} {v : BitVec 32} {field : FieldStore} {new : NewObject}
  {o : RawObject} {j : Nat}

theorem RawObject.ref_fits (o : RawObject) (hk : k ∈ o.type.refPlaces) : k + 4 ≤ o.body.length := by
  rw [o.length_body]
  generalize (Image.word o.body 0).toNat = size
  have hplaces : ∀ k ∈ [4], k + 4 ≤ 32 := by decide
  have hcatalog : ∀ k ∈ [0, 4, 8], k + 4 ≤ 12 := by decide
  have hbintree : ∀ k ∈ [16, 20, 24], k + 4 ≤ 32 := by decide
  cases htype : o.type with
  | filehdr =>
    rw [htype] at hk
    exact hplaces k hk
  | catalog =>
    rw [htype] at hk
    exact hcatalog k hk
  | bintree =>
    rw [htype] at hk
    exact hbintree k hk
  | _ =>
    rw [htype] at hk
    cases hk

theorem word_patch_self (h : k + 4 ≤ body.length) : Image.word (patch body k (wordBytes v)) k = v :=
  word_of_slice (slice_patch_self (Nat.le_trans (Nat.le_add_right _ _) h))

theorem word_patch_before (h : k + 4 ≤ body.length) (hj : j + 4 ≤ k) :
    Image.word (patch body k (wordBytes v)) j = Image.word body j := by
  rw [Image.word, Image.word, slice_patch_before (Nat.le_trans (Nat.le_add_right _ _) h) hj]

theorem word_patch_behind (h : k + 4 ≤ body.length) (hj : k + 4 ≤ j) :
    Image.word (patch body k (wordBytes v)) j = Image.word body j := by
  have hlength := length_wordBytes v
  rw [Image.word, Image.word, slice_patch_behind (by rw [hlength]; exact h)
    (by rw [hlength]; exact hj)]

theorem word_patch_cases (hfits : j + 4 ≤ body.length) (hk : k = j ∨ k + 4 ≤ j ∨ j + 4 ≤ k) :
    Image.word (patch body j (wordBytes v)) k = v ∨
      Image.word (patch body j (wordBytes v)) k = Image.word body k := by
  rcases hk with rfl | hk | hk
  · exact .inl (word_patch_self hfits)
  · exact .inr (word_patch_before hfits hk)
  · exact .inr (word_patch_behind hfits hk)

/-- A store to an object changes no reference in it but the one that is stored. -/
theorem FieldStore.Fits.ref_cases (h : field.Fits o) (hk : k ∈ o.type.refPlaces) :
    field.ref = some (Image.word (o.patchBody _ field.data h.mutable).body k) ∨
      Image.word (o.patchBody _ field.data h.mutable).body k = Image.word o.body k := by
  have hfits := h.mutable.fits
  have hplaces := h.type ▸ hk
  have hword : ∀ {j : Nat} {v : BitVec 32}, field.place - 8 = j → field.data = wordBytes v →
      field.ref = some v → k = j ∨ k + 4 ≤ j ∨ j + 4 ≤ k →
      field.ref = some (Image.word (o.patchBody _ field.data h.mutable).body k) ∨
        Image.word (o.patchBody _ field.data h.mutable).body k = Image.word o.body k := by
    intro j v hj hv href hdisjoint
    have hlength : j + 4 ≤ o.body.length := by
      rw [hj, hv, length_wordBytes] at hfits
      exact hfits
    show field.ref = some (Image.word (patch o.body (field.place - 8) field.data) k) ∨
      Image.word (patch o.body (field.place - 8) field.data) k = Image.word o.body k
    rw [hj, hv, href]
    rcases word_patch_cases hlength hdisjoint with hnew | hold
    · exact .inl (by rw [hnew])
    · exact .inr hold
  have hheader : ∀ k ∈ [4], k = 4 ∨ k + 4 ≤ 4 ∨ 4 + 4 ≤ k := by decide
  have hvalue : ∀ k ∈ [0, 4, 8], k = 4 ∨ k + 4 ≤ 4 ∨ 4 + 4 ≤ k := by decide
  have hnext : ∀ k ∈ [0, 4, 8], k = 8 ∨ k + 4 ≤ 8 ∨ 8 + 4 ≤ k := by decide
  have hless : ∀ k ∈ [16, 20, 24], k = 20 ∨ k + 4 ≤ 20 ∨ 20 + 4 ≤ k := by decide
  have hmore : ∀ k ∈ [16, 20, 24], k = 24 ∨ k + 4 ≤ 24 ∨ 24 + 4 ≤ k := by decide
  cases field with
  | rootCatalog v => exact hword rfl rfl rfl (hheader k hplaces)
  | catValue v => exact hword rfl rfl rfl (hvalue k hplaces)
  | catNext v => exact hword rfl rfl rfl (hnext k hplaces)
  | linkLess v => exact hword rfl rfl rfl (hless k hplaces)
  | linkMore v => exact hword rfl rfl rfl (hmore k hplaces)
  | _ => cases hplaces

theorem NewObject.ref_cases (h : new.contents.length < 2 ^ 32)
    (hk : k ∈ new.type.refPlaces) : Image.word (new.raw h).body k ∈ 0 :: new.refs := by
  cases new with
  | catalog nameOffs valueOffs nextEntryOffs =>
    have hk : k = 0 ∨ k = 4 ∨ k = 8 := by simpa [type, ObjectType.refPlaces] using hk
    rcases hk with rfl | rfl | rfl
    · rw [word_of_slice (v := nameOffs) rfl]
      exact List.mem_cons_of_mem _ List.mem_cons_self
    · rw [word_of_slice (v := valueOffs) rfl]
      exact List.mem_cons_of_mem _ (List.mem_cons_of_mem _ List.mem_cons_self)
    · rw [word_of_slice (v := nextEntryOffs) rfl]
      exact List.mem_cons_of_mem _ (List.mem_cons_of_mem _ (List.mem_cons_of_mem _
        List.mem_cons_self))
  | bintree key1 key2 value =>
    have hk : k = 16 ∨ k = 20 ∨ k = 24 := by simpa [type, ObjectType.refPlaces] using hk
    rcases hk with rfl | rfl | rfl
    · rw [word_of_slice (v := value) rfl]
      exact List.mem_cons_of_mem _ List.mem_cons_self
    · rw [word_of_slice (v := 0) rfl]
      exact List.mem_cons_self
    · rw [word_of_slice (v := 0) rfl]
      exact List.mem_cons_self
  | _ => cases hk

theorem RefsKnown.store {p : Nat} (h : RefsKnown img) (ho : ObjectIn img p o) (hfits : field.Fits o)
    (href : ∀ r, field.ref = some r → Known img r) :
    RefsKnown (patch img (p + field.place) field.data) := by
  intro q other hother k hk
  have hgrows := grows_store ho hfits
  obtain ⟨objs, hlaid, hat⟩ := ho
  have hshape := RawObject.sameShape_patchBody hfits.mutable
  rcases recordAt_setRecord_cases hat hshape.length_encode
    ((hlaid.stored hat hfits).objectIn_iff.1 hother) with ⟨-, rfl⟩ | ⟨-, hold⟩
  · rcases hfits.ref_cases hk with hnew | hold
    · exact (href _ hnew).grows hgrows
    · rw [hold]
      exact (h p o ⟨objs, hlaid, hat⟩ k hk).grows hgrows
  · exact (h q other ⟨objs, hlaid, hold⟩ k hk).grows hgrows

theorem RefsKnown.append (h : RefsKnown img) (hlaid : WellLaid img)
    (hlimit : (Image.append img new).length < 2 ^ 32) (hrefs : ∀ r ∈ new.refs, Known img r) :
    RefsKnown (Image.append img new) := by
  intro q other hother k hk
  have hgrows := grows_append hlimit
  have hzero := hlaid.known_zero
  obtain ⟨objs, hlaid⟩ := hlaid
  obtain ⟨objs', hlaid', happended⟩ := hlaid.append_cases hlimit
  rcases happended.onlyNew q other (hlaid'.objectIn_iff.1 hother) with
    hold | rfl | ⟨hdr, hhdr, hshape, hroot⟩
  · exact (h q other ⟨objs, hlaid, hold⟩ k hk).grows hgrows
  · rcases List.mem_cons.1 (NewObject.ref_cases _ hk) with hnone | href
    · rw [hnone]
      exact hzero.grows hgrows
    · exact (hrefs _ href).grows hgrows
  · -- the only reference in the header is the root catalog
    obtain ⟨hdr', hhdr', htype⟩ := hlaid.header
    rw [hhdr] at hhdr'
    cases hhdr'
    have hplaces : hdr.type.refPlaces = [4] := by rw [htype]; rfl
    rw [hshape.type, hplaces] at hk
    obtain rfl := List.mem_singleton.1 hk
    rw [hroot]
    exact (h 0 hdr ⟨objs, hlaid, hhdr⟩ 4 (by rw [hplaces]; exact List.mem_singleton_self 4)).grows
      hgrows

end References

/-! ## The discipline of the commands -/

/-- What is relied on: the file stays shorter than its offsets can say. -/
def Access.Rely : Access → Image → Prop
  | .append new, img => (Image.append img new).length < 2 ^ 32
  | _, _ => True

/-- What is guaranteed: objects are looked for where they begin, and a store is to a field of
an object. -/
def Access.Guar : Access → Image → Prop
  | .look _ offs, img => Known img offs
  | .store field offs, img =>
    (∃ o, ObjectIn img offs.toNat o ∧ field.Fits o) ∧ ∀ r, field.ref = some r → Known img r
  | .append new, img => ∀ r ∈ new.refs, Known img r
  | _, _ => True

structure GrowsSound (img img' : Image) : Prop where
  grows : Grows img img'
  sound : SoundFile img → SoundFile img'

variable {img : Image}

theorem GrowsSound.of_refs {img' : Image} (hgrows : Grows img img')
    (hrefs : SoundFile img → RefsKnown img') : GrowsSound img img' :=
  ⟨hgrows, fun h => ⟨h.laid.grows hgrows, hrefs h⟩⟩

def fileDiscipline : Discipline Access Access.Answer Image where
  handle := Access.handle
  rely := Access.Rely
  guar := Access.Guar
  le := GrowsSound
  le_refl := fun img => ⟨.refl img, id⟩
  le_trans := fun h h' => ⟨h.grows.trans h'.grows, h'.sound ∘ h.sound⟩
  grows := by
    intro access img hrely hguar
    cases access with
    | store field offs =>
      obtain ⟨⟨o, ho, hfits⟩, href⟩ := hguar
      exact .of_refs (grows_store ho hfits) fun h => h.refs.store ho hfits href
    | append new => exact .of_refs (grows_append hrely) fun h => h.refs.append h.laid hrely hguar
    | _ => exact ⟨.refl img, id⟩

section Rules

variable {α : Type} {offs : Offset} {type : ObjectType} {place : Nat} {post : α → Image → Prop}
  {f : Offset → RuletreeProgram α}

theorem runs_look {f : Bool → RuletreeProgram α} (hknown : Known img offs)
    (hmissing : fileDiscipline.Runs (f false) img post)
    (hfound : HasObject img offs type → fileDiscipline.Runs (f true) img post) :
    fileDiscipline.Runs (.step (.look type offs) f) img post := by
  refine fun _ => ⟨hknown, ?_⟩
  show fileDiscipline.Runs (f (Image.hasObjectPtr img type offs)) img post
  cases hptr : Image.hasObjectPtr img type offs with
  | false => exact hmissing
  | true => exact hfound (hknown.hasObject hptr)

theorem runs_load {f : BitVec 32 → RuletreeProgram α}
    (hf : ∀ v, fileDiscipline.Runs (f v) img post) :
    fileDiscipline.Runs (.step (.load offs place) f) img post := fun _ => ⟨trivial, hf _⟩

theorem runs_loadRef {k : Nat} (hsound : SoundFile img) (hobject : HasObject img offs type)
    (hk : k ∈ type.refPlaces) (hf : ∀ r, Known img r → fileDiscipline.Runs (f r) img post) :
    fileDiscipline.Runs (.step (.load offs (8 + k)) f) img post := by
  refine fun _ => ⟨trivial, hf _ ?_⟩
  obtain ⟨o, ho, rfl⟩ := hobject
  obtain ⟨objs, hlaid, hat⟩ := ho
  have hknown := hsound.refs _ o ⟨objs, hlaid, hat⟩ k hk
  rwa [← hlaid.word_body hat (o.ref_fits hk)] at hknown

theorem runs_loadLong {f : BitVec 64 → RuletreeProgram α}
    (hf : ∀ v, fileDiscipline.Runs (f v) img post) :
    fileDiscipline.Runs (.step (.loadLong offs place) f) img post := fun _ => ⟨trivial, hf _⟩

theorem runs_text {f : List Byte → RuletreeProgram α}
    (hf : ∀ str, fileDiscipline.Runs (f str) img post) :
    fileDiscipline.Runs (.step (.text offs place) f) img post := fun _ => ⟨trivial, hf _⟩

theorem runs_store {field : FieldStore} {f : Unit → RuletreeProgram α}
    (hobject : HasObject img offs field.type) (hlist : field.type ≠ .objectlist)
    (href : ∀ r, field.ref = some r → Known img r)
    (hf : ∀ img', GrowsSound img img' → fileDiscipline.Runs (f ()) img' post) :
    fileDiscipline.Runs (.step (.store field offs) f) img post := by
  intro hrely
  obtain ⟨o, ho, htype⟩ := hobject
  have hfits : field.Fits o := FieldStore.fits_of_type htype.symm (by rw [htype]; exact hlist)
  have hguar : Access.Guar (.store field offs) img := ⟨⟨o, ho, hfits⟩, href⟩
  exact ⟨hguar, hf _ (fileDiscipline.grows _ _ hrely hguar)⟩

theorem runs_append {new : NewObject} (hlaid : WellLaid img) (hrefs : ∀ r ∈ new.refs, Known img r)
    (hf : ∀ img' offs, GrowsSound img img' → HasObject img' offs new.type →
      fileDiscipline.Runs (f offs) img' post) :
    fileDiscipline.Runs (.step (.append new) f) img post := fun hrely =>
  ⟨hrefs, hf _ _ (fileDiscipline.grows (.append new) img hrely hrefs)
    ⟨_, hlaid.appended hrely, rfl⟩⟩

end Rules

/-! ## The operations -/

def EntryOf (r : Option Offset) (img : Image) : Prop :=
  ∀ entry, r = some entry → HasObject img entry .catalog

theorem entryOf_none (img : Image) : EntryOf none img := nofun

theorem HasObject.entryOf {entry : Offset} (h : HasObject img entry .catalog) :
    EntryOf (some entry) img := by
  intro e he
  cases he
  exact h

section Operations

theorem runs_objectlistSetItem {listOffs : Offset} (hknown : Known img listOffs) (n : BitVec 32)
    (value : Offset) :
    fileDiscipline.Runs (objectlistSetItem listOffs n value) img fun _ _ => True := by
  refine runs_look hknown trivial ?_
  -- the size is read from the list that is written to
  rintro ⟨o, ⟨objs, hlaid, hat⟩, htype⟩
  refine fun _ => ⟨trivial, ?_⟩
  have hsize : Image.word img (listOffs.toNat + 8) = Image.word o.body 0 :=
    hlaid.word_body hat (k := 0) o.four_le_length
  show fileDiscipline.Runs (if Image.word img (listOffs.toNat + 8) ≤ n then _ else _) img _
  split
  · trivial
  · rename_i hn
    rw [hsize] at hn
    have hlt : n < Image.word o.body 0 := BitVec.not_le.1 hn
    exact fun _ => ⟨⟨⟨o, ⟨objs, hlaid, hat⟩, FieldStore.fits_item htype hlt⟩, nofun⟩, trivial⟩

variable {offs value catalogOffs : Offset}

theorem runs_overwriteUint32 (hknown : Known img offs) (value : BitVec 32) :
    fileDiscipline.Runs (overwriteUint32 offs value) img fun _ _ => True :=
  runs_look hknown trivial fun hobject => runs_store hobject nofun nofun fun _ _ => trivial

theorem runs_overwriteBoolean (hknown : Known img offs) (value : BitVec 32) :
    fileDiscipline.Runs (overwriteBoolean offs value) img fun _ _ => True :=
  runs_look hknown trivial fun hobject => runs_store hobject nofun nofun fun _ _ => trivial

theorem runs_createCatalogEntry (hsound : SoundFile img) (name : Option CText)
    (hvalue : Known img value) :
    fileDiscipline.Runs (createCatalogEntry name value) img fun entry img' =>
      HasObject img' entry .catalog := by
  have hzero := hsound.laid.known_zero
  cases name with
  | none =>
    refine runs_append hsound.laid (fun r hr => ?_) fun img' entry _ hentry => hentry
    have hr : r = 0 ∨ r = value ∨ r = 0 := by simpa [NewObject.refs] using hr
    rcases hr with rfl | rfl | rfl
    · exact hzero
    · exact hvalue
    · exact hzero
  | some str =>
    refine runs_append hsound.laid nofun fun img' nameOffs hgrows hname => ?_
    refine runs_append (hgrows.sound hsound).laid (fun r hr => ?_) fun img' entry _ hentry => hentry
    have hr : r = nameOffs ∨ r = value ∨ r = 0 := by simpa [NewObject.refs] using hr
    rcases hr with rfl | rfl | rfl
    · exact hname.known
    · exact hvalue.grows hgrows.grows
    · exact hzero.grows hgrows.grows

theorem runs_findLastLoop (hsound : SoundFile img) (rounds : Nat) {catp : Offset}
    (hcatp : HasObject img catp .catalog) :
    fileDiscipline.Runs (findLastLoop rounds catp) img fun entry img' =>
      HasObject img' entry .catalog := by
  induction rounds generalizing catp with
  | zero => trivial
  | succ rounds ih =>
    refine runs_loadRef (k := 8) hsound hcatp (by decide) fun next hnext => ?_
    show fileDiscipline.Runs (if next = 0 then _ else _) img _
    split
    · exact hcatp
    · exact runs_look hnext trivial fun hobject => ih hobject

/-- A search begins at the root catalog, unless another one is given. -/
theorem known_start {root : Offset} (hknown : Known img catalogOffs) (hroot : Known img root) :
    Known img (if catalogOffs = 0 then root else catalogOffs) := by
  split
  · exact hroot
  · exact hknown

theorem runs_findLastCatalogEntry (hsound : SoundFile img) (hknown : Known img catalogOffs) :
    fileDiscipline.Runs (findLastCatalogEntry catalogOffs) img EntryOf := by
  refine runs_loadRef (k := 4) hsound hsound.laid.hasHeader (by decide) fun root hroot => ?_
  have hstart := known_start hknown hroot
  show fileDiscipline.Runs (if (if catalogOffs = 0 then root else catalogOffs) = 0 then _ else _)
    img _
  generalize (if catalogOffs = 0 then root else catalogOffs) = start at hstart
  split
  · exact entryOf_none img
  · refine runs_look hstart (entryOf_none img) fun hobject => runs_load fun fileSize => ?_
    exact (runs_findLastLoop hsound fileSize.toNat hobject).bind_le
      fun last img' _ hlast => hlast.entryOf

theorem runs_linkEntry (hsound : SoundFile img) {newEntryOffs : Offset}
    (hknown : Known img catalogOffs) (hnew : Known img newEntryOffs) :
    fileDiscipline.Runs (linkEntryToRuletreeCatalog catalogOffs newEntryOffs) img
      fun _ _ => True := by
  refine (runs_findLastCatalogEntry hsound hknown).bind_le fun prev img' hle hprev => ?_
  have href := (hnew.grows hle.grows).ref
  cases prev with
  | some entry => exact runs_store (hprev entry rfl) nofun href fun _ _ => trivial
  | none =>
    show fileDiscipline.Runs (if catalogOffs = 0 then _ else _) img' _
    split
    · exact runs_store (hle.sound hsound).laid.hasHeader nofun href fun _ _ => trivial
    · trivial

theorem runs_entryPtr (hknown : Known img offs) :
    fileDiscipline.Runs (entryPtr offs) img EntryOf :=
  runs_look hknown (entryOf_none img) fun hobject => hobject.entryOf

theorem runs_addEntry (hsound : SoundFile img) (hknown : Known img catalogOffs)
    (name : Option CText) (hvalue : Known img value) :
    fileDiscipline.Runs (addEntryToRuletreeCatalog catalogOffs name value) img EntryOf := by
  refine (runs_createCatalogEntry hsound name hvalue).bind_le fun entry img' hle hentry => ?_
  show fileDiscipline.Runs (if entry = 0 then _ else _) img' _
  split
  · exact entryOf_none img'
  · refine (runs_linkEntry (hle.sound hsound) (hknown.grows hle.grows) hentry.known).bind_le
      fun _ img'' hle' _ => ?_
    exact runs_entryPtr (hentry.known.grows hle'.grows)

theorem runs_entryHasName (name : CText) {nameOffs : Offset}
    (hknown : Known img nameOffs) :
    fileDiscipline.Runs (entryHasName name nameOffs) img fun _ img' => img' = img :=
  runs_look hknown rfl fun _ => runs_load fun _ => runs_text fun _ => rfl

theorem runs_findCatalogLoop (hsound : SoundFile img) (name : CText) (rounds : Nat)
    {entryLocation : Offset} (hknown : Known img entryLocation) :
    fileDiscipline.Runs (findCatalogLoop name rounds entryLocation) img EntryOf := by
  induction rounds generalizing entryLocation with
  | zero => trivial
  | succ rounds ih =>
    refine runs_look hknown (entryOf_none img) fun hobject => ?_
    refine runs_loadRef (k := 0) hsound hobject (by decide) fun nameOffs hname => ?_
    refine (runs_entryHasName name hname).bind_le fun same img' _ himg => ?_
    rw [himg]
    cases same with
    | true => exact hobject.entryOf
    | false =>
      refine runs_loadRef (k := 8) hsound hobject (by decide) fun next hnext => ?_
      show fileDiscipline.Runs (if next = 0 then _ else _) img _
      split
      · exact entryOf_none img
      · exact ih hnext

theorem runs_findCatalogEntry (hsound : SoundFile img) (hknown : Known img catalogOffs)
    (name : Option CText) :
    fileDiscipline.Runs (findCatalogEntry catalogOffs name) img EntryOf := by
  cases name with
  | none => exact entryOf_none img
  | some str =>
    refine runs_loadRef (k := 4) hsound hsound.laid.hasHeader (by decide) fun root hroot => ?_
    have hstart := known_start hknown hroot
    show fileDiscipline.Runs (if (if catalogOffs = 0 then root else catalogOffs) = 0 then _ else _)
      img _
    generalize (if catalogOffs = 0 then root else catalogOffs) = start at hstart
    split
    · exact entryOf_none img
    · exact runs_load fun fileSize => runs_findCatalogLoop hsound str fileSize.toNat hstart

theorem runs_addOrFindObject (hsound : SoundFile img) {first : Offset} (hknown : Known img first)
    (name : Option CText) {parent : Option Offset} (hparent : EntryOf parent img) :
    fileDiscipline.Runs (catalogAddOrFindObject first name parent) img EntryOf := by
  have hzero := hsound.laid.known_zero
  unfold catalogAddOrFindObject
  split
  · refine (runs_findCatalogEntry hsound hknown name).bind_le fun entry img' hle hentry => ?_
    cases entry with
    | some entry => exact hentry
    | none =>
      exact runs_addEntry (hle.sound hsound) (hknown.grows hle.grows) name (hzero.grows hle.grows)
  · cases parent with
    | none => exact runs_addEntry hsound hzero name hzero
    | some parent =>
      refine (runs_createCatalogEntry hsound name hzero).bind_le fun entry img' hle hentry => ?_
      refine runs_store ((hparent parent rfl).grows hle.grows) nofun hentry.known.ref
        fun img'' hle' => ?_
      exact runs_entryPtr (hentry.known.grows hle'.grows)

theorem runs_storeValue {entry : Offset} (hentry : HasObject img entry .catalog)
    (hvalue : Known img value) :
    fileDiscipline.Runs (store (.catValue value) entry >>= fun _ => pure true) img
      fun _ _ => True :=
  runs_store hentry nofun hvalue.ref fun _ _ => trivial

section

variable (hsound : SoundFile img)

include hsound

theorem runs_catalogVsetLoop (hvalue : Known img value) {first : Offset}
    (hknown : Known img first) {catptr : Option Offset} (hcatptr : EntryOf catptr img)
    (namev : List CText) :
    fileDiscipline.Runs (catalogVsetLoop value first catptr namev) img fun _ _ => True := by
  induction namev generalizing img first catptr with
  | nil =>
    cases catptr with
    | none => trivial
    | some entry => exact runs_storeValue (hcatptr entry rfl) hvalue
  | cons name namev ih =>
    rw [catalogVsetLoop]
    refine (runs_addOrFindObject hsound hknown (some name) hcatptr).bind_le
      fun entry img' hle hentry => ?_
    cases entry with
    | none => trivial
    | some entry =>
      refine runs_loadRef (k := 4) (hle.sound hsound) (hentry entry rfl) (by decide)
        fun next hnext => ?_
      exact ih (hle.sound hsound) (hvalue.grows hle.grows) hnext hentry

theorem runs_catalogVset (hvalue : Known img value) (namev : List CText) :
    fileDiscipline.Runs (catalogVset namev value) img fun _ _ => True :=
  runs_loadRef (k := 4) hsound hsound.laid.hasHeader (by decide) fun _ hroot =>
    runs_catalogVsetLoop hsound hvalue hroot (entryOf_none img) namev

theorem runs_catalogSet (hvalue : Known img value)
    (catalogName objectName : Option CText) :
    fileDiscipline.Runs (catalogSet catalogName objectName value) img fun _ _ => True := by
  refine runs_loadRef (k := 4) hsound hsound.laid.hasHeader (by decide) fun root hroot => ?_
  refine (runs_addOrFindObject hsound hroot catalogName (entryOf_none img)).bind_le
    fun catalog img' hle hcatalog => ?_
  cases catalog with
  | none => trivial
  | some catalog =>
    have hsound := hle.sound hsound
    refine runs_loadRef (k := 4) hsound (hcatalog catalog rfl) (by decide) fun first hfirst => ?_
    refine (runs_addOrFindObject hsound hfirst objectName hcatalog).bind_le
      fun entry img'' hle' hentry => ?_
    cases entry with
    | none => trivial
    | some entry =>
      exact runs_storeValue (hentry entry rfl) ((hvalue.grows hle.grows).grows hle'.grows)

theorem runs_addToBintreeEntry {valueNodeOffs : Offset}
    (hvalue : Known img valueNodeOffs) (key1 key2 : BitVec 64) {lastComparedNode : Offset}
    (hlast : Known img lastComparedNode) (lastDirection : Option Side) :
    fileDiscipline.Runs
      (addToBintreeEntry valueNodeOffs key1 key2 lastComparedNode lastDirection) img
      fun root img' => Known img' root := by
  have hrefs : ∀ r ∈ (NewObject.bintree key1 key2 valueNodeOffs).refs, Known img r := by
    intro r hr
    obtain rfl := List.mem_singleton.1 hr
    exact hvalue
  unfold addToBintreeEntry
  split
  · exact runs_append hsound.laid hrefs fun img' root _ hroot => hroot.known
  · refine runs_look hlast hsound.laid.known_zero fun hobject => ?_
    refine runs_append hsound.laid hrefs fun img' new hle hnew => ?_
    refine runs_loadLong fun parentKey1 => runs_loadLong fun parentKey2 => ?_
    have hparent := hobject.grows hle.grows
    have hdone : Known img' 0 := (hle.sound hsound).laid.known_zero
    have hlink : ∀ (field : FieldStore) (place : Nat), field.type = .bintree →
        field.ref = some new →
        fileDiscipline.Runs (load lastComparedNode place >>= fun link =>
          if link = 0 then store field lastComparedNode >>= fun _ => pure 0
          else (pure 0 : RuletreeProgram Offset)) img' fun root img'' => Known img'' root := by
      intro field place htype hfield
      refine runs_load fun link => ?_
      show fileDiscipline.Runs (if link = 0 then _ else _) img' _
      split
      · refine runs_store (by rw [htype]; exact hparent) (by rw [htype]; exact nofun)
          (by rw [hfield]; exact hnew.known.ref) fun img'' hle' => ?_
        exact hdone.grows hle'.grows
      · exact hdone
    cases lastDirection with
    | none => exact hdone
    | some side =>
      cases side with
      | less =>
        show fileDiscipline.Runs (if _ then _ else _) img' _
        split
        · exact hlink (.linkLess new) 28 rfl rfl
        · exact hdone
      | more =>
        show fileDiscipline.Runs (if _ then _ else _) img' _
        split
        · exact hlink (.linkMore new) 32 rfl rfl
        · exact hdone

theorem runs_setInodestat (dev ino : BitVec 64) {lastVisited : Offset}
    (hoffs : Known img offs) (hlast : Known img lastVisited) (lastResult : Option Side)
    (istat : InodeSimu) :
    fileDiscipline.Runs (setInodestat dev ino offs lastVisited lastResult istat) img
      fun _ _ => True := by
  unfold setInodestat
  split
  · refine runs_look hoffs trivial fun hnode => ?_
    refine runs_loadRef (k := 16) hsound hnode (by decide) fun value hvalue => ?_
    exact runs_look hvalue trivial fun hrecord => runs_store hrecord nofun nofun fun _ _ => trivial
  · refine runs_append hsound.laid nofun fun img' created hle hcreated => ?_
    refine (runs_addToBintreeEntry (hle.sound hsound) hcreated.known (inoToKey ino) dev
      (hlast.grows hle.grows) lastResult).bind_le fun root img'' hle' hroot => ?_
    split
    · exact (runs_catalogSet (hle'.sound (hle.sound hsound)) hroot _ _).bind_le
        fun _ _ _ _ => trivial
    · trivial

end

end Operations

/-! ## Sequences of operations -/

/-- The offsets among the arguments of an operation that it looks at or stores as
references. -/
def RuletreeOp.offsets : RuletreeOp → List Offset
  | append new => new.refs
  | objectlistSetItem listOffs _ _ => [listOffs]
  | overwriteUint32 offs _ => [offs]
  | overwriteBoolean offs _ => [offs]
  | catalogSet _ _ valueOffset => [valueOffset]
  | catalogVset _ valueOffset => [valueOffset]
  | setInodestat _ _ offs lastVisitedNode _ _ => [offs, lastVisitedNode]

theorem RuletreeOp.runs (hsound : SoundFile img) {op : RuletreeOp}
    (hknown : ∀ offs ∈ op.offsets, Known img offs) :
    fileDiscipline.Runs op.program img fun _ _ => True := by
  cases op with
  | append new => exact runs_append hsound.laid hknown fun _ _ _ _ => trivial
  | objectlistSetItem listOffs n value =>
    exact (runs_objectlistSetItem (hknown _ List.mem_cons_self) n value).bind_le
      fun _ _ _ _ => trivial
  | overwriteUint32 offs value => exact runs_overwriteUint32 (hknown _ List.mem_cons_self) value
  | overwriteBoolean offs value => exact runs_overwriteBoolean (hknown _ List.mem_cons_self) value
  | catalogSet catalogName objectName value =>
    exact (runs_catalogSet hsound (hknown _ List.mem_cons_self) _ _).bind_le fun _ _ _ _ => trivial
  | catalogVset namev value =>
    exact (runs_catalogVset hsound (hknown _ List.mem_cons_self) _).bind_le fun _ _ _ _ => trivial
  | setInodestat dev ino offs lastVisited lastResult istat =>
    have hlast := hknown lastVisited (List.mem_cons_of_mem _ List.mem_cons_self)
    exact (runs_setInodestat hsound dev ino (hknown _ List.mem_cons_self) hlast _ _).bind_le
      fun _ _ _ _ => trivial

/-- No command makes the file shorter. -/
def lengthDiscipline : Discipline Access Access.Answer Image where
  handle := Access.handle
  rely := fun _ _ => True
  guar := fun _ _ => True
  le := fun img img' => img.length ≤ img'.length
  le_refl := fun _ => Nat.le_refl _
  le_trans := Nat.le_trans
  grows := by
    intro access img _ _
    cases access with
    | store field offs => exact length_le_patch _ _ _
    | append new =>
      refine Nat.le_trans ?_ (length_le_patch _ _ _)
      rw [List.length_append]
      refine Nat.le_trans (Nat.le_trans ?_ (length_le_patch _ _ _)) (Nat.le_add_right _ _)
      rw [List.length_append]
      exact Nat.le_add_right _ _
    | _ => exact Nat.le_refl _

theorem length_le_runOps (img : Image) (ops : List RuletreeOp) :
    img.length ≤ (runOps img ops).length := by
  induction ops generalizing img with
  | nil => exact Nat.le_refl _
  | cons op ops ih =>
    have hruns : lengthDiscipline.Runs op.program img fun _ _ => True :=
      .of_guar (fun _ _ => trivial) _ _
    exact Nat.le_trans (hruns.sound fun _ _ => trivial).2.1 (ih _)

theorem rely_of_length {α : Type} (p : RuletreeProgram α)
    (hlimit : (p.run Access.handle img).2.length < 2 ^ 32) :
    ∀ v ∈ p.visits Access.handle img, v.1.Rely v.2 := by
  intro v hv
  have hruns : lengthDiscipline.Runs p img fun _ _ => True := .of_guar (fun _ _ => trivial) _ _
  have hle := (hruns.le_visit (fun _ _ => trivial) hv).2
  obtain ⟨access, img⟩ := v
  cases access with
  | append new => exact Nat.lt_of_le_of_lt hle hlimit
  | _ => trivial

/-- All offsets that are given to the operations are offsets of objects at that time. -/
def KnownArgs (start : Image) : List RuletreeOp → Prop
  | [] => True
  | op :: ops => (∀ offs ∈ op.offsets, Known start offs) ∧
    KnownArgs (op.program.run Access.handle start).2 ops

structure Disciplined (start : Image) (v : Access × Image) (last : Image) : Prop where
  rely : v.1.Rely v.2
  guar : v.1.Guar v.2
  before : GrowsSound start v.2
  after : GrowsSound (v.1.handle v.2).2 last

theorem runOps_disciplined {start : Image} {ops : List RuletreeOp} (hsound : SoundFile start)
    (hknown : KnownArgs start ops) (hlimit : (runOps start ops).length < 2 ^ 32) :
    GrowsSound start (runOps start ops) ∧
      ∀ v ∈ visitsOf start ops, Disciplined start v (runOps start ops) := by
  induction ops generalizing start with
  | nil => exact ⟨fileDiscipline.le_refl start, nofun⟩
  | cons op ops ih =>
    have hruns := RuletreeOp.runs hsound hknown.1
    have hrely := rely_of_length op.program (Nat.lt_of_le_of_lt (length_le_runOps _ ops) hlimit)
    obtain ⟨hguar, hle, -⟩ := hruns.sound hrely
    obtain ⟨hrest, hvisits⟩ := ih (hle.sound hsound) hknown.2 hlimit
    refine ⟨fileDiscipline.le_trans hle hrest, fun v hv => ?_⟩
    rcases List.mem_append.1 hv with hv | hv
    · obtain ⟨hbefore, hafter⟩ := hruns.le_visit hrely hv
      exact ⟨hrely v hv, hguar v hv, hbefore, fileDiscipline.le_trans hafter hrest⟩
    · obtain ⟨hrely, hguar, hbefore, hafter⟩ := hvisits v hv
      exact ⟨hrely, hguar, fileDiscipline.le_trans hle hbefore, hafter⟩

end Scratchbox
