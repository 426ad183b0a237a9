import Scratchbox.RuletreeGrowth

/-!
# Stability of the objects

An offset that was returned stays the offset of an object of the same type, strings and the
sizes of lists never change, the items of a list are an array, and a write to one object
changes no other one (`ruletree_objects_stable`), as long as the operations are given offsets
of objects.

The functions know an object by the magic number in its header, and data can hold this number
too. `forged_list_overwrites_string` is a list whose items pass for another list.
-/

namespace Scratchbox

open Bytes RecordFormat SearchTree

/-! ## What the readers see -/

section Readers

variable {img : Image} {offs : Offset} {o : RawObject}

def resultOf {α : Type} (p : RuletreeProgram α) (img : Image) : Except RuletreeFault α :=
  (p.run Access.handle img).1

def fileAfter {α : Type} (p : RuletreeProgram α) (img : Image) : Image :=
  (p.run Access.handle img).2

section

variable (h : ObjectIn img offs.toNat o) {str : CText}

include h

theorem ObjectIn.hasObjectPtr {type : ObjectType}
    (htype : o.type = type) : Image.hasObjectPtr img type offs = true := by
  have hobject : HasObject img offs type := ⟨o, h, htype⟩
  exact hobject.hasObjectPtr_iff.2 rfl

theorem ObjectIn.size_eq :
    Image.word img (offs.toNat + 8) = Image.word o.body 0 := by
  obtain ⟨objs, hlaid, hat⟩ := h
  exact hlaid.word_body hat (k := 0) o.four_le_length

theorem ObjectIn.text_eq (hbody : o.body.drop 4 = str.bytes ++ [0]) :
    Image.text img (offs.toNat + 12) = str.bytes := by
  obtain ⟨objs, hlaid, hat⟩ := h
  have hlength : 4 + (o.body.length - 4) = o.body.length := Nat.add_sub_cancel' o.four_le_length
  have hslice : (img.drop (offs.toNat + 12)).take (o.body.length - 4) = str.bytes ++ [0] := by
    have hall : (o.body.drop 4).take (o.body.length - 4) = o.body.drop 4 :=
      List.take_of_length_le (Nat.le_of_eq List.length_drop)
    rw [← hbody, ← hall]
    exact hlaid.slice_body hat (k := 4) (Nat.le_of_eq hlength)
  have hnonzero : ∀ b ∈ str.bytes, (decide (b ≠ 0)) = true := fun b hb =>
    decide_eq_true fun hzero => str.zero_notMem (hzero ▸ hb)
  rw [Image.text, ← List.take_append_drop (o.body.length - 4) (img.drop (offs.toNat + 12)), hslice,
    List.append_assoc, List.takeWhile_append_of_pos hnonzero, List.cons_append,
    List.takeWhile_cons_of_neg (by decide), List.append_nil]

theorem run_offsetToRuletreeStringPtr (htype : o.type = .string)
    (hbody : o.body.drop 4 = str.bytes ++ [0]) :
    (offsetToRuletreeStringPtr offs).run Access.handle img =
      (.ok (some (Image.word o.body 0, str.bytes)), img) := by
  show Program.run Access.handle (if Image.hasObjectPtr img .string offs = true then _ else _)
    img = _
  rw [if_pos (h.hasObjectPtr htype), ← h.size_eq, ← h.text_eq hbody]
  rfl

theorem run_objectlistGetListSize (htype : o.type = .objectlist) :
    resultOf (objectlistGetListSize offs) img = .ok (Image.word o.body 0) := by
  show (Program.run Access.handle (if Image.hasObjectPtr img .objectlist offs = true then _ else _)
    img).1 = _
  rw [if_pos (h.hasObjectPtr htype), ← h.size_eq]
  rfl

theorem run_objectlistGetItem (htype : o.type = .objectlist)
    (n : BitVec 32) :
    resultOf (objectlistGetItem offs n) img =
      if Image.word o.body 0 ≤ n then .ok 0 else .ok (Image.word o.body (4 + 4 * n.toNat)) := by
  show (Program.run Access.handle (if Image.hasObjectPtr img .objectlist offs = true then _ else _)
    img).1 = _
  rw [if_pos (h.hasObjectPtr htype)]
  show (Program.run Access.handle (if Image.word img (offs.toNat + 8) ≤ n then _ else _) img).1 = _
  rw [h.size_eq]
  split
  · rfl
  · rename_i hn
    obtain ⟨objs, hlaid, hat⟩ := h
    have hfits := FieldStore.item_le_length htype (BitVec.not_le.1 hn)
    rw [← hlaid.word_body hat hfits, ← Nat.add_assoc 8 4]
    rfl

theorem run_objectlistSetItem (htype : o.type = .objectlist)
    (n : BitVec 32) (value : Offset) :
    (objectlistSetItem offs n value).run Access.handle img =
      if Image.word o.body 0 ≤ n then (.ok (-1), img)
      else (.ok 1, patch img (offs.toNat + (12 + 4 * n.toNat)) (wordBytes value)) := by
  show Program.run Access.handle (if Image.hasObjectPtr img .objectlist offs = true then _ else _)
    img = _
  rw [if_pos (h.hasObjectPtr htype)]
  show Program.run Access.handle (if Image.word img (offs.toNat + 8) ≤ n then _ else _) img = _
  rw [h.size_eq]
  split
  · rfl
  · rfl

end

end Readers

structure ListIsArray (img : Image) (listOffs : Offset) (size : BitVec 32) : Prop where
  set : ∀ n value, n < size → resultOf (objectlistSetItem listOffs n value) img = .ok 1
  get_set : ∀ n value, n < size →
    resultOf (objectlistGetItem listOffs n) (fileAfter (objectlistSetItem listOffs n value) img) =
      .ok value
  get_set_other : ∀ n value m, n < size → m ≠ n →
    resultOf (objectlistGetItem listOffs m) (fileAfter (objectlistSetItem listOffs n value) img) =
      resultOf (objectlistGetItem listOffs m) img
  setOutside : ∀ n value, size ≤ n →
    (objectlistSetItem listOffs n value).run Access.handle img = (.ok (-1), img)
  getOutside : ∀ n, size ≤ n → resultOf (objectlistGetItem listOffs n) img = .ok 0

variable {o : RawObject} {offs : Offset} {img : Image}

theorem ObjectIn.store_self {p : Nat} {field : FieldStore} (h : ObjectIn img p o)
    (hfits : field.Fits o) :
    ObjectIn (patch img (p + field.place) field.data) p
      (o.patchBody _ field.data hfits.mutable) := by
  obtain ⟨objs, hlaid, hat⟩ := h
  exact ⟨_, hlaid.stored hat hfits, recordAt_setRecord_self hat⟩

theorem ObjectIn.listIsArray (h : ObjectIn img offs.toNat o)
    (htype : o.type = .objectlist) : ListIsArray img offs (Image.word o.body 0) := by
  have hset : ∀ n value, n < Image.word o.body 0 →
      (objectlistSetItem offs n value).run Access.handle img =
        (.ok 1, patch img (offs.toNat + (12 + 4 * n.toNat)) (wordBytes value)) := by
    intro n value hn
    rw [run_objectlistSetItem h htype, if_neg (BitVec.not_le.2 hn)]
  -- the list after the store, and its items
  have hget : ∀ n value m, n < Image.word o.body 0 →
      resultOf (objectlistGetItem offs m)
          (fileAfter (objectlistSetItem offs n value) img) =
        if Image.word o.body 0 ≤ m then .ok 0
        else .ok (Image.word (patch o.body (4 + 4 * n.toNat) (wordBytes value))
          (4 + 4 * m.toNat)) := by
    intro n value m hn
    have hfits : (FieldStore.item n value).Fits o := FieldStore.fits_item htype hn
    have hshape := RawObject.sameShape_patchBody hfits.mutable
    have hstored : ObjectIn (patch img (offs.toNat + (12 + 4 * n.toNat)) (wordBytes value))
        offs.toNat (o.patchBody _ (wordBytes value) hfits.mutable) := h.store_self hfits
    rw [fileAfter, hset n value hn, run_objectlistGetItem hstored htype]
    have hsize : Image.word (o.patchBody _ (wordBytes value) hfits.mutable).body 0 =
        Image.word o.body 0 := hshape.listSize htype
    have hbody : (o.patchBody _ (wordBytes value) hfits.mutable).body =
        patch o.body (4 + 4 * n.toNat) (wordBytes value) := hfits.body_item
    rw [hbody] at hsize ⊢
    rw [hsize]
  refine ⟨fun n value hn => ?_, fun n value hn => ?_, fun n value m hn hne => ?_,
    fun n value hn => ?_, fun n hn => ?_⟩
  · rw [resultOf, hset n value hn]
  · rw [hget n value n hn, if_neg (BitVec.not_le.2 hn)]
    rw [word_patch_self (FieldStore.item_le_length htype hn)]
  · rw [hget n value m hn, run_objectlistGetItem h htype]
    split
    · rfl
    · have hne' : m.toNat ≠ n.toNat := fun heq => hne (BitVec.eq_of_toNat_eq heq)
      have hfits := FieldStore.item_le_length htype hn
      rcases Nat.lt_or_gt_of_ne hne' with hlt | hlt
      · rw [word_patch_before hfits (by omega)]
      · rw [word_patch_behind hfits (by omega)]
  · rw [run_objectlistSetItem h htype, if_pos hn]
  · rw [run_objectlistGetItem h htype, if_pos hn]

/-! ## Stability -/

def fileHeader (maxSize : BitVec 32) (minMmapAddr : BitVec 64) (minClientSocketFd : BitVec 32) :
    RawObject where
  type := .filehdr
  body := wordBytes 6 ++ wordBytes 0 ++ longBytes minMmapAddr ++ wordBytes 40 ++
    wordBytes maxSize ++ wordBytes minClientSocketFd ++ wordBytes 0
  length_body := rfl
  string_body := nofun

section Created

variable (maxSize : BitVec 32) (minMmapAddr : BitVec 64) (minClientSocketFd : BitVec 32)

theorem laid_createRuletreeFile :
    Laid (createRuletreeFile maxSize minMmapAddr minClientSocketFd)
      [fileHeader maxSize minMmapAddr minClientSocketFd] where
  bytes := rfl
  header := ⟨_, rfl, rfl⟩
  size := by
    have hsize : Image.fileSize (createRuletreeFile maxSize minMmapAddr minClientSocketFd) = 40 :=
      word_of_slice rfl
    rw [hsize]
    rfl

theorem soundFile_create :
    SoundFile (createRuletreeFile maxSize minMmapAddr minClientSocketFd) := by
  have hlaid := laid_createRuletreeFile maxSize minMmapAddr minClientSocketFd
  refine ⟨⟨_, hlaid⟩, fun p o ho k hk => ?_⟩
  rcases recordAt_cons_cases (hlaid.objectIn_iff.1 ho) with ⟨-, rfl⟩ | ⟨q, -, hq⟩
  · obtain rfl := List.mem_singleton.1 hk
    have hroot : Image.word (fileHeader maxSize minMmapAddr minClientSocketFd).body 4 = 0 :=
      word_of_slice rfl
    rw [hroot]
    exact WellLaid.known_zero ⟨_, hlaid⟩
  · cases hq

end Created

/-- What is stable in the file. The offsets are those that were returned for the objects that
the operations have appended. -/
structure ObjectsStable (start : Image) (ops : List RuletreeOp) : Prop where
  /-- An offset keeps referring to an object of the same type. -/
  types : ∀ new img, (.append new, img) ∈ visitsOf start ops → ∀ type,
    resultOf (look type (Access.handle (.append new) img).1) (runOps start ops) =
      .ok (decide (type = new.type))
  /-- Strings and their lengths do not change. -/
  strings : ∀ str img, (.append (.string str), img) ∈ visitsOf start ops →
    resultOf (offsetToRuletreeStringPtr (Access.handle (.append (.string str)) img).1)
      (runOps start ops) = .ok (some (BitVec.ofNat 32 str.bytes.length, str.bytes))
  /-- Lists keep their sizes. -/
  listSizes : ∀ size img, (.append (.objectlist size), img) ∈ visitsOf start ops →
    resultOf (objectlistGetListSize (Access.handle (.append (.objectlist size)) img).1)
      (runOps start ops) = .ok size
  lists : ∀ size img, (.append (.objectlist size), img) ∈ visitsOf start ops →
    ListIsArray (runOps start ops) (Access.handle (.append (.objectlist size)) img).1 size
  /-- A store through a pointer changes no byte outside of the object. -/
  stores : ∀ field offs img, (.store field offs, img) ∈ visitsOf start ops →
    ∃ o, ObjectIn img offs.toNat o ∧
      ∀ i, i < offs.toNat ∨ offs.toNat + o.encode.length ≤ i →
        (Access.handle (.store field offs) img).2[i]? = img[i]?
  /-- An append changes only the size of the file in its header. -/
  appends : ∀ new img, (.append new, img) ∈ visitsOf start ops →
    ∀ i, i < img.length → i < 24 ∨ 28 ≤ i →
      (Access.handle (.append new) img).2[i]? = img[i]?

section Stable

variable {start last : Image} {new : NewObject}

theorem Disciplined.appended (hsound : SoundFile start)
    (h : Disciplined start (.append new, img) last) :
    ∃ (hcontents : new.contents.length < 2 ^ 32) (o : RawObject),
      ObjectIn last (Access.handle (.append new) img).1.toNat o ∧
        (new.raw hcontents).SameShape o := by
  obtain ⟨o, ho, hshape⟩ := h.after.grows.objectIn ((h.before.sound hsound).laid.appended h.rely)
  exact ⟨contents_lt h.rely, o, ho, hshape⟩

theorem getElem?_append_of_lt (hheader : 40 ≤ img.length)
    (hcontents : new.contents.length < 2 ^ 32) {i : Nat} (hi : i < img.length)
    (hspared : i < 24 ∨ 28 ≤ i) : (Image.append img new)[i]? = img[i]? := by
  have hfits : 24 + (wordBytes (BitVec.ofNat 32
      (img.length + (new.raw hcontents).encode.length))).length ≤ img.length := by
    rw [length_wordBytes]
    exact Nat.le_trans (by decide) hheader
  rw [append_eq hheader hcontents, List.getElem?_append_left (by rw [length_patch hfits]; exact hi)]
  refine getElem?_patch hfits ?_
  rw [length_wordBytes]
  exact hspared

end Stable

/-- The objects of a rule tree are stable, whatever operations are done with offsets of
objects. -/
theorem ruletree_objects_stable (maxSize : BitVec 32) (minMmapAddr : BitVec 64)
    (minClientSocketFd : BitVec 32) (ops : List RuletreeOp)
    (hknown : KnownArgs (createRuletreeFile maxSize minMmapAddr minClientSocketFd) ops)
    (hlimit : (runOps (createRuletreeFile maxSize minMmapAddr minClientSocketFd) ops).length ≤
      maxSize.toNat) :
    ObjectsStable (createRuletreeFile maxSize minMmapAddr minClientSocketFd) ops := by
  have hsound := soundFile_create maxSize minMmapAddr minClientSocketFd
  obtain ⟨-, hvisits⟩ :=
    runOps_disciplined hsound hknown (Nat.lt_of_le_of_lt hlimit maxSize.isLt)
  refine ⟨fun new img hv type => ?_, fun str img hv => ?_, fun size img hv => ?_,
    fun size img hv => ?_, fun field offs img hv => ?_, fun new img hv i hi hspared => ?_⟩
  · obtain ⟨_, o, ho, hshape⟩ := (hvisits _ hv).appended hsound
    have hobject : HasObject _ _ new.type := ⟨o, ho, hshape.type⟩
    show Except.ok (Image.hasObjectPtr _ type _) = _
    rw [Except.ok.injEq, Bool.eq_iff_iff, decide_eq_true_iff]
    exact hobject.hasObjectPtr_iff
  · obtain ⟨hcontents, o, ho, hshape⟩ := (hvisits _ hv).appended hsound
    cases hshape.string rfl
    rw [resultOf, run_offsetToRuletreeStringPtr ho rfl (NewObject.drop_string str)]
    have hlt : str.bytes.length < 2 ^ 32 := by
      rw [NewObject.contents, List.length_append] at hcontents
      exact Nat.lt_of_le_of_lt (Nat.le_add_right _ _) hcontents
    have hsize : Image.word ((NewObject.string str).raw hcontents).body 0 =
        BitVec.ofNat 32 str.bytes.length := NewObject.word_string str hlt
    rw [hsize]
  · obtain ⟨hcontents, o, ho, hshape⟩ := (hvisits _ hv).appended hsound
    rw [run_objectlistGetListSize ho hshape.type, hshape.listSize rfl]
    exact congrArg Except.ok (NewObject.word_objectlist size)
  · obtain ⟨hcontents, o, ho, hshape⟩ := (hvisits _ hv).appended hsound
    have harray := ho.listIsArray hshape.type
    rw [hshape.listSize rfl] at harray
    have hsize : Image.word ((NewObject.objectlist size).raw hcontents).body 0 = size :=
      NewObject.word_objectlist size
    rwa [hsize] at harray
  · obtain ⟨⟨o, ho, hfits⟩, -⟩ := (hvisits _ hv).guar
    refine ⟨o, ho, fun i hi => ?_⟩
    obtain ⟨objs, hlaid, hat⟩ := ho
    have hend : offs.toNat + o.encode.length ≤ img.length := hlaid.end_le hat
    have hfit := hfits.fits
    refine getElem?_patch ?_ ?_
    · omega
    · omega
  · obtain ⟨objs, hlaid⟩ := ((hvisits _ hv).before.sound hsound).laid
    exact getElem?_append_of_lt hlaid.header_le (contents_lt (hvisits _ hv).rely) hi hspared

/-- The string `a`. -/
def textA : CText := ⟨[0x61], by decide⟩

/-- A list and a number, both of which are changed later. -/
theorem small_ruletree_stable :
    ObjectsStable (createRuletreeFile 4096 0 0)
      [.append (.objectlist 2), .objectlistSetItem 40 1 0, .append (.uint32 5),
        .overwriteUint32 60 6] := by
  have hsound := soundFile_create 4096 0 0
  have hlist : Known (Image.append (createRuletreeFile 4096 0 0) (.objectlist 2)) 40 :=
    ⟨_, hsound.laid.appended (by decide +kernel)⟩
  have hknown : KnownArgs (createRuletreeFile 4096 0 0)
      [.append (.objectlist 2), .objectlistSetItem 40 1 0] := by
    refine ⟨nofun, fun offs hoffs => ?_, trivial⟩
    obtain rfl := List.mem_singleton.1 hoffs
    exact hlist
  have hset := (runOps_disciplined hsound hknown (by decide +kernel)).1.sound hsound
  refine ruletree_objects_stable 4096 0 0 _
    ⟨hknown.1, hknown.2.1, nofun, fun offs hoffs => ?_, trivial⟩ (by decide +kernel)
  obtain rfl := List.mem_singleton.1 hoffs
  exact ⟨_, hset.laid.appended (by decide +kernel)⟩

/-- A list whose items are the header of another list, of one item, and a string behind it. -/
def forgedListOps : List RuletreeOp :=
  [.append (.objectlist 3), .objectlistSetItem 40 0 ruletreeMagic,
    .objectlistSetItem 40 1 ObjectType.objectlist.code, .objectlistSetItem 40 2 1,
    .append (.string textA)]

/-- The forged list is set, and its item is the header of the string. -/
theorem forged_list_overwrites_string :
    resultOf (offsetToRuletreeStringPtr 64) (runOps (createRuletreeFile 4096 0 0) forgedListOps) =
        .ok (some (1, [0x61])) ∧
      resultOf (offsetToRuletreeStringPtr 64) (runOps (createRuletreeFile 4096 0 0)
        (forgedListOps ++ [.objectlistSetItem 52 0 0])) = .ok none ∧
      (runOps (createRuletreeFile 4096 0 0)
        (forgedListOps ++ [.objectlistSetItem 52 0 0])).length ≤ 4096 ∧
      ¬ ObjectsStable (createRuletreeFile 4096 0 0)
        (forgedListOps ++ [.objectlistSetItem 52 0 0]) := by
  refine ⟨by decide +kernel, by decide +kernel, by decide +kernel, fun hstable => ?_⟩
  have hstring := hstable.strings textA _ (List.mem_append_right _ (List.mem_append_right _
    (List.mem_append_right _ (List.mem_append_right _ (List.mem_append_left _
      List.mem_cons_self)))))
  revert hstring
  decide +kernel

end Scratchbox
