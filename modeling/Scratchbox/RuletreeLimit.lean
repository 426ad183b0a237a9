import Scratchbox.RuletreeLayout

/-!
# The size limit of the rule tree

The file is mapped with its maximum size, which is given when it is created, and the readers
compare an offset with the size of the file that the appends note in the header. No append
looks at the maximum: the file grows beyond its mapping without an error.

`ruletree_within_mapping_iff` says that the readers stay within the mapping exactly if the
callers never append more than fits.
-/

namespace Scratchbox

open Bytes RecordFormat

/-- The number of bytes that are appended. -/
def NewObject.size (new : NewObject) : Nat := 8 + new.fields.length + new.contents.length

def appendAll (img : Image) (news : List NewObject) : Image := news.foldl Image.append img

section Sizes

variable {img : Image}

section

variable (h : 28 ≤ img.length)

include h

theorem length_noteFileSize : (Image.noteFileSize img).length = img.length :=
  length_patch (note_fits h _)

theorem le_length_appended (new : NewObject) :
    28 ≤ (Image.appendStruct img new.fields new.type ++ new.contents).length := by
  refine Nat.le_trans h ?_
  rw [List.length_append]
  refine Nat.le_trans ?_ (Nat.le_trans (length_le_patch _ _ _) (Nat.le_add_right _ _))
  rw [List.length_append]
  exact Nat.le_add_right _ _

theorem length_append_eq (new : NewObject) :
    (Image.append img new).length = img.length + new.size := by
  have hstruct : (Image.appendStruct img new.fields new.type).length =
      img.length + (8 + new.fields.length) := by
    unfold Image.appendStruct
    rw [length_noteFileSize]
    · simp only [List.length_append, length_wordBytes]
    · rw [List.length_append]
      exact Nat.le_trans h (Nat.le_add_right _ _)
  unfold Image.append
  rw [length_noteFileSize (le_length_appended h new), List.length_append, hstruct, NewObject.size,
    Nat.add_assoc]

/-- The size in the header is the length of the file, as far as a word can hold it. -/
theorem fileSize_append (new : NewObject) :
    Image.fileSize (Image.append img new) = BitVec.ofNat 32 (Image.append img new).length := by
  have hlong := le_length_appended h new
  have hnote : Image.fileSize (Image.append img new) =
      BitVec.ofNat 32 (Image.appendStruct img new.fields new.type ++ new.contents).length :=
    word_of_slice (slice_patch_self (Nat.le_trans (by decide) hlong))
  rw [hnote, Image.append, length_noteFileSize hlong]

theorem maxSize_noteFileSize :
    Image.maxSize (Image.noteFileSize img) = Image.maxSize img := by
  have hbehind := note_fits h (BitVec.ofNat 32 img.length)
  unfold Image.maxSize Image.word Image.noteFileSize
  rw [slice_patch_behind hbehind (Nat.le_of_eq (by rw [length_wordBytes]))]

end

theorem maxSize_append (h : 32 ≤ img.length) (new : NewObject) :
    Image.maxSize (Image.append img new) = Image.maxSize img := by
  have hshort : 28 ≤ img.length := Nat.le_trans (by decide) h
  have happended : ∀ (l : Image) (r : List Byte), 32 ≤ l.length →
      28 ≤ (l ++ r).length ∧ Image.maxSize (l ++ r) = Image.maxSize l := by
    intro l r hl
    refine ⟨?_, ?_⟩
    · rw [List.length_append]
      exact Nat.le_trans (Nat.le_trans (by decide) hl) (Nat.le_add_right _ _)
    · unfold Image.maxSize Image.word
      rw [slice_append_left r hl]
  obtain ⟨hstruct, hmax⟩ := happended img
    (wordBytes ruletreeMagic ++ wordBytes new.type.code ++ new.fields) h
  have hlong : 32 ≤ (Image.appendStruct img new.fields new.type).length := by
    unfold Image.appendStruct
    rw [length_noteFileSize hstruct, List.length_append]
    exact Nat.le_trans h (Nat.le_add_right _ _)
  obtain ⟨hcontents, hmax'⟩ := happended _ new.contents hlong
  unfold Image.append
  rw [maxSize_noteFileSize hcontents, hmax', Image.appendStruct, maxSize_noteFileSize hstruct, hmax]

end Sizes

section Runs

variable {start : Image}

theorem appendAll_concat (start : Image) (done : List NewObject) (new : NewObject) :
    appendAll start (done ++ [new]) = Image.append (appendAll start done) new := by
  rw [appendAll, List.foldl_append]
  rfl

theorem length_appendAll (hstart : 40 ≤ start.length) (done : List NewObject) :
    40 ≤ (appendAll start done).length := by
  induction done using List.reverseRecOn with
  | nil => exact hstart
  | append_singleton done new ih =>
    rw [appendAll_concat, length_append_eq (Nat.le_trans (by decide) ih)]
    exact Nat.le_trans ih (Nat.le_add_right _ _)

theorem fileSize_appendAll (hstart : 40 ≤ start.length)
    (hsize : Image.fileSize start = BitVec.ofNat 32 start.length) (done : List NewObject) :
    Image.fileSize (appendAll start done) = BitVec.ofNat 32 (appendAll start done).length := by
  induction done using List.reverseRecOn with
  | nil => exact hsize
  | append_singleton done new _ =>
    rw [appendAll_concat, fileSize_append (Nat.le_trans (by decide) (length_appendAll hstart done))]

theorem maxSize_appendAll (hstart : 40 ≤ start.length) (done : List NewObject) :
    Image.maxSize (appendAll start done) = Image.maxSize start := by
  induction done using List.reverseRecOn with
  | nil => rfl
  | append_singleton done new ih =>
    rw [appendAll_concat, maxSize_append (Nat.le_trans (by decide) (length_appendAll hstart done)),
      ih]

theorem length_appendAll_le (hstart : 40 ≤ start.length) {limit : Nat}
    (hlimit : start.length ≤ limit) {news done : List NewObject}
    (hfits : ∀ before new, before ++ [new] <+: news →
      (appendAll start before).length + new.size ≤ limit) (hdone : done <+: news) :
    (appendAll start done).length ≤ limit := by
  induction done using List.reverseRecOn with
  | nil => exact hlimit
  | append_singleton done new _ =>
    rw [appendAll_concat,
      length_append_eq (Nat.le_trans (by decide) (length_appendAll hstart done))]
    exact hfits done new hdone

theorem append_run_ne (hstart : 28 ≤ start.length) (new : NewObject) :
    (append new).run Access.handle start ≠ (.ok 0, start) := by
  intro h
  have hlength : (Image.append start new).length = start.length :=
    congrArg (fun r => List.length r.2) h
  rw [length_append_eq hstart, NewObject.size] at hlength
  omega

end Runs

/-! ## Within the mapping -/

/-- After a sequence of appends to a new file: its size is within the maximum, what passes the
bounds check is mapped, and the last append was refused if it did not fit. -/
structure WithinMapping (maxSize : BitVec 32) (start : Image) (done : List NewObject) : Prop where
  size : Image.fileSize (appendAll start done) ≤ Image.maxSize (appendAll start done)
  mapped : ∀ offs, Image.hasRawPtr (appendAll start done) offs = true →
    offs.toNat < maxSize.toNat
  refused : ∀ before new, before ++ [new] = done →
    maxSize.toNat < (appendAll start before).length + new.size →
      (append new).run Access.handle (appendAll start before) = (.ok 0, appendAll start before)

/-- The readers stay within the mapping all along exactly if the header and every append
fit. -/
theorem ruletree_within_mapping_iff (maxSize : BitVec 32) (minMmapAddr : BitVec 64)
    (minClientSocketFd : BitVec 32) (news : List NewObject) :
    (∀ done, done <+: news → WithinMapping maxSize
        (createRuletreeFile maxSize minMmapAddr minClientSocketFd) done) ↔
      40 ≤ maxSize.toNat ∧ ∀ before new, before ++ [new] <+: news →
        (appendAll (createRuletreeFile maxSize minMmapAddr minClientSocketFd) before).length +
          new.size ≤ maxSize.toNat := by
  generalize hcreate : createRuletreeFile maxSize minMmapAddr minClientSocketFd = start
  have hlength : start.length = 40 := by rw [← hcreate]; rfl
  have hsize : Image.fileSize start = 40 := by rw [← hcreate]; exact word_of_slice rfl
  have hmax : Image.maxSize start = maxSize := by rw [← hcreate]; exact word_of_slice rfl
  have hstart : 40 ≤ start.length := Nat.le_of_eq hlength.symm
  constructor
  · intro h
    refine ⟨?_, fun before new hmore => Nat.le_of_not_lt fun hover => ?_⟩
    · have hfirst : Image.fileSize start ≤ Image.maxSize start := (h [] List.nil_prefix).size
      rw [hsize, hmax] at hfirst
      exact hfirst
    · exact append_run_ne (Nat.le_trans (by decide) (length_appendAll hstart before)) new
        ((h _ hmore).refused before new rfl hover)
  · rintro ⟨hheader, hfits⟩ done hdone
    have hle := length_appendAll_le hstart (by rw [hlength]; exact hheader) hfits hdone
    have hnoted : (Image.fileSize (appendAll start done)).toNat =
        (appendAll start done).length := by
      rw [fileSize_appendAll hstart (by rw [hsize, hlength]; rfl), BitVec.toNat_ofNat,
        Nat.mod_eq_of_lt (Nat.lt_of_le_of_lt hle maxSize.isLt)]
    have hwithin : (Image.fileSize (appendAll start done)).toNat ≤ maxSize.toNat := by
      rw [hnoted]
      exact hle
    refine ⟨?_, fun offs hraw => ?_, fun before new hlast hover => ?_⟩
    · rw [maxSize_appendAll hstart, hmax]
      exact hwithin
    · have hlt : offs.toNat < (Image.fileSize (appendAll start done)).toNat :=
        of_decide_eq_true hraw
      exact Nat.lt_of_lt_of_le hlt hwithin
    · rw [← hlast] at hdone
      exact absurd (hfits before new hdone) (Nat.not_le.2 hover)

/-- A file that is mapped for its header only takes a boolean, and its offset passes for
mapped. -/
theorem boolean_beyond_mapping :
    (append (.boolean 1)).run Access.handle (createRuletreeFile 40 0 0) =
        (.ok 40, appendAll (createRuletreeFile 40 0 0) [.boolean 1]) ∧
      Image.fileSize (appendAll (createRuletreeFile 40 0 0) [.boolean 1]) = 52 ∧
      Image.maxSize (appendAll (createRuletreeFile 40 0 0) [.boolean 1]) = 40 ∧
      Image.hasRawPtr (appendAll (createRuletreeFile 40 0 0) [.boolean 1]) 40 = true := by
  refine ⟨rfl, by decide +kernel, by decide +kernel, by decide +kernel⟩

end Scratchbox
