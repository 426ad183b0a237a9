import Scratchbox.Lib.Records
import Scratchbox.RuletreeImage

/-!
# The objects in the file

The file of the rule tree is a sequence of objects, one directly behind the other, that begins with
the header of the file. Every write through a pointer stays inside of one object, so that objects
keep their type and size (`Grows`). The functions know an object by the magic number in its header,
which data can hold too. What is said here is about operations that find the number only where an
object begins.
-/

namespace Scratchbox

open Bytes RecordFormat SearchTree

/-! ## Objects as bytes -/

theorem length_wordBytes (v : BitVec 32) : (wordBytes v).length = 4 := length_leBytes 4 _

theorem word_of_slice {img : Image} {addr : Nat} {v : BitVec 32}
    (h : slice img addr 4 = wordBytes v) : Image.word img addr = v := by
  have hlt : v.toNat < 256 ^ 4 := v.isLt
  rw [Image.word, h, wordBytes, leValue_leBytes_of_lt hlt, BitVec.ofNat_toNat, BitVec.setWidth_eq]

/-- The number of bytes behind the header of an object, by the word behind the header. -/
def ObjectType.bodyLength : ObjectType → Nat → Nat
  | filehdr, _ => 32
  | catalog, _ => 12
  | fsrule, _ => 48
  | string, size => 4 + size + 1
  | objectlist, size => 4 + 4 * size
  | bintree, _ => 32
  | inodestat, _ => 48
  | uint32, _ => 4
  | boolean, _ => 4
  | execPpRule, _ => 32
  | execSelRule, _ => 16
  | netRule, _ => 44

theorem ObjectType.four_le_bodyLength (type : ObjectType) (size : Nat) :
    4 ≤ type.bodyLength size := by
  cases type <;> simp only [bodyLength] <;> omega

theorem ObjectType.code_injective {s t : ObjectType} (h : s.code = t.code) : s = t := by
  cases s <;> cases t <;> first | rfl | exact absurd h (by decide)

/-- An object of the file: its type, and the bytes behind its header. -/
structure RawObject where
  type : ObjectType
  body : List Byte
  length_body : body.length = type.bodyLength (Image.word body 0).toNat
  /-- A string ends with the only zero in it. -/
  string_body : type = .string → ∃ str : CText, body.drop 4 = str.bytes ++ [0]

namespace RawObject

def header (o : RawObject) : List Byte := wordBytes ruletreeMagic ++ wordBytes o.type.code

def encode (o : RawObject) : List Byte := o.header ++ o.body

theorem length_header (o : RawObject) : o.header.length = 8 := by
  rw [header, List.length_append, length_wordBytes, length_wordBytes]

theorem length_encode (o : RawObject) : o.encode.length = 8 + o.body.length := by
  rw [encode, List.length_append, length_header]

theorem four_le_length (o : RawObject) : 4 ≤ o.body.length := by
  rw [o.length_body]
  exact o.type.four_le_bodyLength _

theorem length_encode_pos (o : RawObject) : 0 < o.encode.length := by
  rw [length_encode]
  exact Nat.add_pos_left (by decide) _

variable {o o' : RawObject} {data : List Byte} {k : Nat}

theorem ext_of_body (htype : o.type = o'.type) (hbody : o.body = o'.body) : o = o' := by
  obtain ⟨type, body, _, _⟩ := o
  cases htype
  cases hbody
  rfl

theorem word_append_left {l : List Byte} (r : List Byte) (h : 4 ≤ l.length) :
    Image.word (l ++ r) 0 = Image.word l 0 := by
  rw [Image.word, slice_append_left r (Nat.zero_add 4 ▸ h), Image.word]

theorem encode_append_injective {r r' : List Byte}
    (h : o.encode ++ r = o'.encode ++ r') : o = o' ∧ r = r' := by
  rw [encode, encode, List.append_assoc, List.append_assoc] at h
  obtain ⟨hheader, hrest⟩ := List.append_inj h (by rw [length_header, length_header])
  obtain ⟨-, hcode⟩ := List.append_inj hheader rfl
  have htype : o.type = o'.type := by
    refine ObjectType.code_injective (BitVec.eq_of_toNat_eq ?_)
    exact leBytes_injective (k := 4) o.type.code.isLt o'.type.code.isLt hcode
  have hword : Image.word o.body 0 = Image.word o'.body 0 := by
    rw [← word_append_left r o.four_le_length, hrest, word_append_left r' o'.four_le_length]
  have hlength : o.body.length = o'.body.length := by
    rw [o.length_body, o'.length_body, htype, hword]
  obtain ⟨hbody, hr⟩ := List.append_inj hrest hlength
  exact ⟨ext_of_body htype hbody, hr⟩

/-- The place is behind the words that say what the object is. -/
structure Mutable (o : RawObject) (k len : Nat) : Prop where
  notString : o.type ≠ .string
  behindSize : o.type = .objectlist → 4 ≤ k
  fits : k + len ≤ o.body.length

def patchBody (o : RawObject) (k : Nat) (data : List Byte) (h : o.Mutable k data.length) :
    RawObject where
  type := o.type
  body := patch o.body k data
  length_body := by
    rw [length_patch h.fits, o.length_body]
    by_cases hlist : o.type = .objectlist
    · have hk : 0 + 4 ≤ k := h.behindSize hlist
      rw [Image.word, Image.word,
        slice_patch_before (Nat.le_trans (Nat.le_add_right _ _) h.fits) hk]
    · cases htype : o.type with
      | objectlist => exact absurd htype hlist
      | string => exact absurd htype h.notString
      | _ => rfl
  string_body := fun hstring => absurd hstring h.notString

theorem encode_patchBody (h : o.Mutable k data.length) :
    (o.patchBody k data h).encode = patch o.encode (8 + k) data := by
  have hright := patch_append_right o.header o.body k data
  rw [length_header] at hright
  rw [encode, encode, hright]
  rfl

/-- What no write changes. -/
structure SameShape (o o' : RawObject) : Prop where
  type : o'.type = o.type
  length : o'.body.length = o.body.length
  string : o.type = .string → o' = o
  listSize : o.type = .objectlist → Image.word o'.body 0 = Image.word o.body 0

theorem SameShape.refl (o : RawObject) : o.SameShape o := ⟨rfl, rfl, fun _ => rfl, fun _ => rfl⟩

theorem SameShape.trans {o'' : RawObject} (h : o.SameShape o') (h' : o'.SameShape o'') :
    o.SameShape o'' where
  type := h'.type.trans h.type
  length := h'.length.trans h.length
  string hstring := (h'.string (h.type.trans hstring)).trans (h.string hstring)
  listSize hlist := (h'.listSize (h.type.trans hlist)).trans (h.listSize hlist)

theorem SameShape.length_encode (h : o.SameShape o') : o'.encode.length = o.encode.length := by
  rw [RawObject.length_encode, RawObject.length_encode, h.length]

theorem sameShape_patchBody (h : o.Mutable k data.length) : o.SameShape (o.patchBody k data h) where
  type := rfl
  length := length_patch h.fits
  string hstring := absurd hstring h.notString
  listSize hlist := by
    have hk : 0 + 4 ≤ k := h.behindSize hlist
    show Image.word (patch o.body k data) 0 = Image.word o.body 0
    rw [Image.word, Image.word,
      slice_patch_before (Nat.le_trans (Nat.le_add_right _ _) h.fits) hk]

end RawObject

abbrev rawFormat : RecordFormat RawObject Byte where
  encode := RawObject.encode
  encode_pos := RawObject.length_encode_pos
  encode_injective := RawObject.encode_append_injective

/-! ## The file as a sequence of objects -/

/-- The file consists of these objects, and its size is noted in its header. -/
structure Laid (img : Image) (objs : List RawObject) : Prop where
  bytes : img = rawFormat.encodeAll objs
  header : ∃ hdr, rawFormat.recordAt objs 0 = some hdr ∧ hdr.type = .filehdr
  size : (Image.fileSize img).toNat = img.length

def ObjectIn (img : Image) (p : Nat) (o : RawObject) : Prop :=
  ∃ objs, Laid img objs ∧ rawFormat.recordAt objs p = some o

section Laid

variable {img : Image} {objs : List RawObject} {p k : Nat} {o : RawObject}

theorem Laid.unique {objs' : List RawObject} (h : Laid img objs) (h' : Laid img objs') :
    objs = objs' := encodeAll_injective (h.bytes.symm.trans h'.bytes)

theorem Laid.objectIn_iff (h : Laid img objs) :
    ObjectIn img p o ↔ rawFormat.recordAt objs p = some o := by
  constructor
  · rintro ⟨objs', h', ho⟩
    rw [h.unique h', ho]
  · exact fun ho => ⟨objs, h, ho⟩

theorem Laid.length_lt (h : Laid img objs) : img.length < 2 ^ 32 := by
  rw [← h.size]
  exact (Image.fileSize img).isLt

theorem Laid.end_le (h : Laid img objs) (ho : rawFormat.recordAt objs p = some o) :
    p + o.encode.length ≤ img.length := by
  rw [h.bytes]
  exact recordAt_end ho

theorem RawObject.length_encode_filehdr (h : o.type = .filehdr) : o.encode.length = 40 := by
  rw [o.length_encode, o.length_body, h]
  rfl

section

variable (h : Laid img objs) {len : Nat}

include h

theorem Laid.header_le : 40 ≤ img.length := by
  obtain ⟨hdr, hhdr, htype⟩ := h.header
  have hend := h.end_le hhdr
  rwa [Nat.zero_add, RawObject.length_encode_filehdr htype] at hend

theorem Laid.header_le_of_ne (ho : rawFormat.recordAt objs p = some o)
    (hp : p ≠ 0) : 40 ≤ p := by
  obtain ⟨hdr, hhdr, htype⟩ := h.header
  cases objs with
  | nil => cases ho
  | cons first objs =>
    cases hhdr
    obtain ⟨q, rfl, -⟩ := recordAt_cons_of_ne ho hp
    rw [RawObject.length_encode_filehdr htype]
    exact Nat.le_add_right _ _

theorem Laid.slice_header (ho : rawFormat.recordAt objs p = some o)
    (hk : k + len ≤ 8) : slice img (p + k) len = slice o.header k len := by
  have hfits : k + len ≤ o.encode.length := by
    rw [o.length_encode]
    exact Nat.le_trans hk (Nat.le_add_right _ _)
  have hheader : k + len ≤ o.header.length := by rwa [o.length_header]
  rw [h.bytes, slice_encodeAll ho hfits]
  exact slice_append_left _ hheader

theorem Laid.slice_body (ho : rawFormat.recordAt objs p = some o)
    (hk : k + len ≤ o.body.length) : slice img (p + (8 + k)) len = slice o.body k len := by
  have hfits : 8 + k + len ≤ o.encode.length := by
    rw [o.length_encode, Nat.add_assoc]
    exact Nat.add_le_add_left hk 8
  have hright := slice_append_right o.header o.body k len
  rw [o.length_header] at hright
  rw [h.bytes, slice_encodeAll ho hfits]
  exact hright

theorem Laid.word_body (ho : rawFormat.recordAt objs p = some o)
    (hk : k + 4 ≤ o.body.length) : Image.word img (p + (8 + k)) = Image.word o.body k := by
  rw [Image.word, h.slice_body ho hk, Image.word]

theorem Laid.hasObjectPtr_iff {offs : Offset}
    (ho : rawFormat.recordAt objs offs.toNat = some o) {type : ObjectType} :
    Image.hasObjectPtr img type offs = true ↔ type = o.type := by
  have hmagic : Image.word img offs.toNat = ruletreeMagic :=
    word_of_slice (h.slice_header ho (k := 0) (Nat.le_add_right 4 4))
  have hcode : Image.word img (offs.toNat + 4) = o.type.code :=
    word_of_slice (h.slice_header ho (k := 4) (Nat.le_refl 8))
  have hraw : Image.hasRawPtr img offs = true := by
    have hlt : offs.toNat < (Image.fileSize img).toNat := by
      rw [h.size]
      exact Nat.lt_of_lt_of_le (Nat.lt_add_of_pos_right o.length_encode_pos) (h.end_le ho)
    exact decide_eq_true hlt
  rw [Image.hasObjectPtr, hraw, hmagic, hcode, beq_self_eq_true, Bool.true_and, Bool.true_and,
    beq_iff_eq]
  exact ⟨fun heq => ObjectType.code_injective heq.symm, fun heq => heq ▸ rfl⟩

/-! ## Writing -/

theorem Laid.patched (ho : rawFormat.recordAt objs p = some o)
    {data : List Byte}
    (hmutable : o.Mutable k data.length)
    (hspared : p + (8 + k) + data.length ≤ 24 ∨ 28 ≤ p + (8 + k)) :
    Laid (patch img (p + (8 + k)) data)
      (rawFormat.setRecord objs p (o.patchBody k data hmutable)) := by
  have hfits : 8 + k + data.length ≤ o.encode.length := by
    rw [o.length_encode, Nat.add_assoc]
    exact Nat.add_le_add_left hmutable.fits 8
  have hend : p + (8 + k) + data.length ≤ img.length := by
    rw [Nat.add_assoc]
    exact Nat.le_trans (Nat.add_le_add_left hfits p) (h.end_le ho)
  constructor
  · rw [h.bytes, patch_encodeAll ho hfits (RawObject.encode_patchBody hmutable)]
  · obtain ⟨hdr, hhdr, htype⟩ := h.header
    by_cases hp : p = 0
    · rw [hp] at ho
      rw [hhdr] at ho
      cases ho
      rw [hp]
      exact ⟨_, recordAt_setRecord_self hhdr, htype⟩
    · refine ⟨hdr, ?_, htype⟩
      have hlength : (o.patchBody k data hmutable).encode.length = o.encode.length := by
        rw [RawObject.encode_patchBody hmutable, length_patch hfits]
      rw [recordAt_setRecord_of_ne ho hlength (Ne.symm hp), hhdr]
  · rw [length_patch hend, ← h.size, Image.fileSize, Image.fileSize, Image.word, Image.word]
    rcases hspared with hspared | hspared
    · rw [slice_patch_behind hend hspared]
    · rw [slice_patch_before (Nat.le_trans (Nat.le_add_right _ _) hend) hspared]

end

end Laid

structure FieldStore.Fits (field : FieldStore) (o : RawObject) : Prop where
  type : field.type = o.type
  fits : field.place + field.data.length ≤ o.encode.length

namespace FieldStore

theorem length_simu (simu : InodeSimu) : simu.bytes.length = 48 := by
  simp only [InodeSimu.bytes, List.length_append, longBytes, wordBytes, length_leBytes]

theorem eight_le_place (field : FieldStore) : 8 ≤ field.place := by
  cases field <;> simp only [place] <;> omega

variable {o : RawObject} {n : BitVec 32} {field : FieldStore} {value : Offset}

theorem Fits.mutable (h : field.Fits o) :
    o.Mutable (field.place - 8) field.data.length where
  notString hstring := by
    have htype := h.type.trans hstring
    cases field <;> cases htype
  behindSize hlist := by
    have htype := h.type.trans hlist
    cases field with
    | item n value =>
      show 4 ≤ 12 + 4 * n.toNat - 8
      omega
    | _ => cases htype
  fits := by
    have hplace := field.eight_le_place
    have hfits := h.fits
    rw [o.length_encode] at hfits
    omega

theorem fits_of_type (htype : field.type = o.type)
    (hlist : o.type ≠ .objectlist) : field.Fits o := by
  refine ⟨htype, ?_⟩
  rw [o.length_encode, o.length_body, ← htype]
  cases field with
  | item n value => exact absurd htype.symm hlist
  | inodeSimu simu =>
    rw [data, length_simu]
    exact Nat.le_refl _
  | _ =>
    rw [data, length_wordBytes]
    simp only [place, type, ObjectType.bodyLength]
    decide

theorem item_le_length (htype : o.type = .objectlist)
    (hn : n < Image.word o.body 0) : 4 + 4 * n.toNat + 4 ≤ o.body.length := by
  have hlt : n.toNat < (Image.word o.body 0).toNat := hn
  rw [o.length_body, htype, ObjectType.bodyLength]
  omega

theorem fits_item (htype : o.type = .objectlist)
    (hn : n < Image.word o.body 0) : (item n value).Fits o := by
  refine ⟨htype.symm, ?_⟩
  have hle := item_le_length htype hn
  rw [o.length_encode, data, length_wordBytes]
  show 12 + 4 * n.toNat + 4 ≤ 8 + o.body.length
  omega

theorem Fits.body_item (h : (item n value).Fits o) :
    (o.patchBody _ (item n value).data h.mutable).body =
      patch o.body (4 + 4 * n.toNat) (wordBytes value) := by
  have hplace : (item n value).place - 8 = 4 + 4 * n.toNat := by
    show 12 + 4 * n.toNat - 8 = 4 + 4 * n.toNat
    omega
  rw [← hplace]
  rfl

end FieldStore

section Steps

variable {img : Image} {objs : List RawObject} {p : Nat} {o : RawObject} {field : FieldStore}

/-- Only the root catalog is written in the header, and not the size of the file. -/
theorem Laid.spared (h : Laid img objs) (ho : rawFormat.recordAt objs p = some o)
    (hfits : field.Fits o) : p + field.place + field.data.length ≤ 24 ∨ 28 ≤ p + field.place := by
  by_cases hp : p = 0
  · left
    obtain ⟨hdr, hhdr, htype⟩ := h.header
    rw [hp, hhdr] at ho
    cases ho
    have hfiletype := hfits.type.trans htype
    cases field with
    | rootCatalog offs =>
      rw [hp, FieldStore.data, length_wordBytes]
      exact Nat.le_add_right 16 8
    | _ => cases hfiletype
  · right
    exact Nat.le_trans (by decide) (Nat.le_trans (h.header_le_of_ne ho hp) (Nat.le_add_right _ _))

theorem Laid.stored (h : Laid img objs) (ho : rawFormat.recordAt objs p = some o)
    (hfits : field.Fits o) :
    Laid (patch img (p + field.place) field.data)
      (rawFormat.setRecord objs p (o.patchBody _ field.data hfits.mutable)) := by
  have hplace : 8 + (field.place - 8) = field.place := Nat.add_sub_cancel' field.eight_le_place
  have hlaid := h.patched ho hfits.mutable (by rw [hplace]; exact h.spared ho hfits)
  rwa [hplace] at hlaid

end Steps

/-! ## Appending -/

theorem NewObject.length_words {n : Nat} (fields : Vector (BitVec 32) n) :
    (fields.toList.flatMap wordBytes).length = 4 * n := by
  have hlength : ∀ l : List (BitVec 32), (l.flatMap wordBytes).length = 4 * l.length := by
    intro l
    induction l with
    | nil => rfl
    | cons v l ih =>
      rw [List.flatMap_cons, List.length_append, length_wordBytes, ih, List.length_cons,
        Nat.mul_succ, Nat.add_comm]
  rw [hlength, Vector.length_toList]

theorem NewObject.word_string (str : CText) (h : str.bytes.length < 2 ^ 32) :
    Image.word ((string str).fields ++ (string str).contents) 0 =
      BitVec.ofNat 32 str.bytes.length := by
  rw [RawObject.word_append_left _ (by rw [fields, length_leBytes]), Image.word, slice,
    List.drop_zero, fields, List.take_of_length_le (by rw [length_leBytes]),
    leValue_leBytes_of_lt h]

theorem NewObject.drop_string (str : CText) :
    ((string str).fields ++ (string str).contents).drop 4 = str.bytes ++ [0] := by
  rw [fields, List.drop_left' (length_leBytes 4 _)]
  rfl

theorem NewObject.word_objectlist (size : BitVec 32) :
    Image.word ((objectlist size).fields ++ (objectlist size).contents) 0 = size := by
  rw [RawObject.word_append_left _ (by rw [fields, length_wordBytes])]
  refine word_of_slice ?_
  rw [slice, List.drop_zero, fields, List.take_of_length_le (by rw [length_wordBytes])]

/-- The object in the file. A string is shorter than the numbers that can be stored. -/
def NewObject.raw (new : NewObject) (h : new.contents.length < 2 ^ 32) : RawObject where
  type := new.type
  body := new.fields ++ new.contents
  length_body := by
    rw [List.length_append]
    cases new with
    | string str =>
      have hlt : str.bytes.length < 2 ^ 32 := by
        rw [contents, List.length_append] at h
        exact Nat.lt_of_le_of_lt (Nat.le_add_right _ _) h
      rw [word_string str hlt, BitVec.toNat_ofNat, Nat.mod_eq_of_lt hlt, fields, contents,
        length_leBytes, List.length_append, ← Nat.add_assoc]
      rfl
    | objectlist size =>
      rw [word_objectlist, fields, contents, length_wordBytes, List.length_replicate]
      rfl
    | inodestat simu =>
      show simu.bytes.length + 0 = 48
      exact FieldStore.length_simu simu
    | fsrule fields => exact length_words fields
    | execPpRule fields => exact length_words fields
    | execSelRule fields => exact length_words fields
    | netRule fields => exact length_words fields
    | _ => rfl
  string_body := by
    intro htype
    cases new with
    | string str => exact ⟨str, drop_string str⟩
    | _ => cases htype

section Append

variable {img : Image} {objs : List RawObject} {new : NewObject}

theorem note_fits (h : 28 ≤ img.length) (v : BitVec 32) :
    24 + (wordBytes v).length ≤ img.length := by
  rw [length_wordBytes]
  exact h

/-- The file with a new object behind it, and the size of both in its header. -/
theorem append_eq (hheader : 40 ≤ img.length) (h : new.contents.length < 2 ^ 32) :
    Image.append img new =
      patch img 24 (wordBytes (BitVec.ofNat 32 (img.length + (new.raw h).encode.length))) ++
        (new.raw h).encode := by
  have hfits := note_fits (Nat.le_trans (by decide) hheader)
  have hstruct : wordBytes ruletreeMagic ++ wordBytes new.type.code ++ new.fields ++ new.contents =
      (new.raw h).encode := by
    rw [List.append_assoc _ new.fields]
    rfl
  unfold Image.append Image.appendStruct Image.noteFileSize
  rw [patch_append_left _ (hfits _), List.append_assoc, hstruct, patch_append_left]
  · rw [patch_patch (by rw [length_wordBytes, length_wordBytes]) (hfits _), List.length_append,
      length_patch (hfits _)]
  · rw [length_patch (hfits _)]
    exact hfits _

theorem length_append_new (hheader : 40 ≤ img.length) (h : new.contents.length < 2 ^ 32) :
    (Image.append img new).length = img.length + (new.raw h).encode.length := by
  rw [append_eq hheader h, List.length_append,
    length_patch (note_fits (Nat.le_trans (by decide) hheader) _)]

theorem mutable_size {hdr : RawObject} (htype : hdr.type = .filehdr) (v : BitVec 32) :
    hdr.Mutable 16 (wordBytes v).length where
  notString hstring := by
    rw [htype] at hstring
    cases hstring
  behindSize hlist := by
    rw [htype] at hlist
    cases hlist
  fits := by
    rw [length_wordBytes, hdr.length_body, htype]
    exact Nat.le_add_right 20 12

theorem Laid.appended (h : Laid img objs) (hcontents : new.contents.length < 2 ^ 32)
    (hlimit : img.length + (new.raw hcontents).encode.length < 2 ^ 32) :
    ∃ hdr hdr', rawFormat.recordAt objs 0 = some hdr ∧ hdr.SameShape hdr' ∧
      Image.word hdr'.body 4 = Image.word hdr.body 4 ∧
      Laid (Image.append img new) (rawFormat.setRecord objs 0 hdr' ++ [new.raw hcontents]) := by
  obtain ⟨hdr, hhdr, htype⟩ := h.header
  have hfits := note_fits (Nat.le_trans (by decide) h.header_le)
  refine ⟨hdr, hdr.patchBody 16 _ (mutable_size htype _), hhdr,
    RawObject.sameShape_patchBody (mutable_size htype
      (BitVec.ofNat 32 (img.length + (new.raw hcontents).encode.length))), ?_, ?_, ?_, ?_⟩
  · have hfits := (mutable_size htype 0).fits
    show Image.word (patch hdr.body 16 _) 4 = Image.word hdr.body 4
    rw [Image.word, Image.word, slice_patch_before (Nat.le_trans (Nat.le_add_right _ _) hfits)
      (by decide)]
  · have hpatch := patch_encodeAll hhdr (k := 24)
      (by rw [RawObject.length_encode_filehdr htype, length_wordBytes]; decide)
      (RawObject.encode_patchBody (mutable_size htype
        (BitVec.ofNat 32 (img.length + (new.raw hcontents).encode.length))))
    rw [Nat.zero_add, ← h.bytes] at hpatch
    rw [append_eq h.header_le hcontents, encodeAll_append, hpatch, encodeAll_singleton]
  · exact ⟨_, recordAt_append_left (recordAt_setRecord_self hhdr) _, htype⟩
  · have hsize : Image.fileSize (Image.append img new) =
        BitVec.ofNat 32 (img.length + (new.raw hcontents).encode.length) := by
      refine word_of_slice ?_
      have hpatched : 24 + 4 ≤ (patch img 24 (wordBytes (BitVec.ofNat 32
          (img.length + (new.raw hcontents).encode.length)))).length := by
        rw [length_patch (hfits _)]
        exact hfits 0
      rw [append_eq h.header_le hcontents, slice_append_left _ hpatched]
      exact slice_patch_self (Nat.le_trans (by decide) h.header_le)
    rw [hsize, length_append_new h.header_le hcontents, BitVec.toNat_ofNat, Nat.mod_eq_of_lt hlimit]

end Append

end Scratchbox
