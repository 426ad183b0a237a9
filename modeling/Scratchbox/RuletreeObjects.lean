import Scratchbox.ObjectStability

/-!
# Objects and commands

What happens to a single object of the file when an object is appended or a field is stored,
and how the functions of `rule_tree.c` are followed command by command (`FileReturns`).
-/

namespace Scratchbox

open Bytes RecordFormat

/-- The function returns with the postcondition, as long as the file stays shorter than its
offsets can say. -/
abbrev FileReturns {α : Type} (p : RuletreeProgram α) (img : Image) (post : α → Image → Prop) :
    Prop := Program.Returns Access.handle Access.Rely post p img

section Commands

variable {img : Image} {offs : Offset}

theorem run_look {type : ObjectType} {found : Bool} (h : Image.hasObjectPtr img type offs = found) :
    (look type offs).run Access.handle img = (.ok found, img) := by
  rw [← h]
  rfl

theorem run_load {v : Offset} {place : Nat} (h : Image.word img (offs.toNat + place) = v) :
    (load offs place).run Access.handle img = (.ok v, img) := by
  rw [← h]
  rfl

end Commands

/-! ## Objects -/

def HasName (img : Image) (nameOffs : Offset) (name : CText) : Prop :=
  ∃ o, ObjectIn img nameOffs.toNat o ∧ o.type = .string ∧ o.body.drop 4 = name.bytes ++ [0]

section Objects

variable {img : Image} {p q : Nat} {o other : RawObject}

section

variable (h : ObjectIn img p o) {field : FieldStore}

include h

theorem ObjectIn.ne_zero (htype : o.type ≠ .filehdr) : p ≠ 0 := by
  rintro rfl
  obtain ⟨objs, hlaid, hat⟩ := h
  obtain ⟨hdr, hhdr, hfile⟩ := hlaid.header
  rw [hat] at hhdr
  cases hhdr
  exact htype hfile

theorem ObjectIn.header_le (htype : o.type ≠ .filehdr) : 40 ≤ p := by
  have hp := h.ne_zero htype
  obtain ⟨objs, hlaid, hat⟩ := h
  exact hlaid.header_le_of_ne hat hp

theorem ObjectIn.lt_length : p < img.length := by
  obtain ⟨objs, hlaid, hat⟩ := h
  exact Nat.lt_of_lt_of_le (Nat.lt_add_of_pos_right o.length_encode_pos) (hlaid.end_le hat)

theorem ObjectIn.unique (h' : ObjectIn img p other) : o = other := by
  obtain ⟨objs, hlaid, hat⟩ := h
  have hother := hlaid.objectIn_iff.1 h'
  rw [hat] at hother
  exact Option.some.inj hother

theorem ObjectIn.word_eq {k : Nat} (hk : k + 4 ≤ o.body.length) :
    Image.word img (p + (8 + k)) = Image.word o.body k := by
  obtain ⟨objs, hlaid, hat⟩ := h
  exact hlaid.word_body hat hk

theorem ObjectIn.append (htype : o.type ≠ .filehdr) {new : NewObject}
    (hlimit : (Image.append img new).length < 2 ^ 32) : ObjectIn (Image.append img new) p o := by
  have hp := h.ne_zero htype
  obtain ⟨objs, hlaid, hat⟩ := h
  obtain ⟨objs', hlaid', happended⟩ := hlaid.append_cases hlimit
  exact ⟨objs', hlaid', happended.others p o hp hat⟩

theorem ObjectIn.store_other (hfits : field.Fits o) (hother : ObjectIn img q other) (hne : q ≠ p) :
    ObjectIn (patch img (p + field.place) field.data) q other := by
  obtain ⟨objs, hlaid, hat⟩ := h
  have hshape := RawObject.sameShape_patchBody hfits.mutable
  refine ⟨_, hlaid.stored hat hfits, ?_⟩
  rw [recordAt_setRecord_of_ne hat hshape.length_encode hne]
  exact hlaid.objectIn_iff.1 hother

end

end Objects

theorem HasName.grows {img img' : Image} {offs : Offset} {name : CText}
    (h : HasName img offs name) (hgrows : Grows img img') :
    HasName img' offs name := by
  obtain ⟨o, ho, htype, hbody⟩ := h
  obtain ⟨o', ho', hshape⟩ := hgrows.objectIn ho
  cases hshape.string htype
  exact ⟨o, ho', htype, hbody⟩

end Scratchbox
