import Scratchbox.RuleForest
import Scratchbox.RuletreeObjects

/-!
# Rules of the file, unfolded

What the objects of the file mean as a tree of rules: a rule leads to a list, whose items are
rules or strings. An offset has one meaning only (`ListAt.unique`), and what is complete keeps
its meaning while the file grows (`ListAt.carries`).
-/

namespace Scratchbox

open Bytes RecordFormat List

/-! ## Rules in the file -/

/-- The string at an offset; there is none at zero. -/
def TextAt (img : Image) (offs : Offset) : Option CText → Prop
  | none => offs = 0
  | some str => HasName img offs str

structure RuleArgs.At (args : RuleArgs) (img : Image) (body : List Byte) : Prop where
  name : TextAt img (Image.word body 0) args.name
  selectorType : Image.word body 4 = args.selectorType
  selector : TextAt img (Image.word body 8) args.selector
  actionType : Image.word body 12 = args.actionType
  actionStr : TextAt img (Image.word body 16) args.actionStr
  conditionType : Image.word body 24 = args.conditionType
  conditionStr : TextAt img (Image.word body 28) args.conditionStr
  flags : Image.word body 32 = args.flags
  binaryName : TextAt img (Image.word body 36) args.binaryName
  funcClass : Image.word body 40 = args.funcClass
  execPolicyName : TextAt img (Image.word body 44) args.execPolicyName

/-- A list of a given length, with a property of its items. There is no list without items. The
positions in `busy` are of lists that are not complete yet. -/
def ListWith (busy : List Nat) (img : Image) (length : Nat) (items : List Byte → Prop)
    (offs : Offset) : Prop :=
  (length = 0 ∧ offs = 0) ∨
    (length ≠ 0 ∧ offs.toNat ∉ busy ∧ ∃ o, ObjectIn img offs.toNat o ∧ o.type = .objectlist ∧
      (Image.word o.body 0).toNat = length ∧ items o.body)

mutual

def Unfolded.At (busy : List Nat) (img : Image) : Unfolded → Offset → Prop
  | .hole, offs => offs = 0
  | .text str, offs => HasName img offs str
  | .rule args link, offs => offs.toNat ∉ busy ∧ ∃ o, ObjectIn img offs.toNat o ∧
    o.type = .fsrule ∧ args.At img o.body ∧
      ListWith busy img link.length (fun body => ItemsAt busy img link body 0)
        (Image.word o.body 20)

def ItemsAt (busy : List Nat) (img : Image) : List Unfolded → List Byte → Nat → Prop
  | [], _, _ => True
  | item :: items, body, n =>
    item.At busy img (Image.word body (4 + 4 * n)) ∧ ItemsAt busy img items body (n + 1)

end

def ListAt (busy : List Nat) (img : Image) (items : List Unfolded) (offs : Offset) : Prop :=
  ListWith busy img items.length (fun body => ItemsAt busy img items body 0) offs

theorem Unfolded.induct {P : Unfolded → Prop} (hole : P .hole) (text : ∀ str, P (.text str))
    (rule : ∀ args link, (∀ u ∈ link, P u) → P (.rule args link)) (u : Unfolded) : P u := by
  induction hsize : sizeOf u using Nat.strongRecOn generalizing u with
  | ind size ih =>
    cases u with
    | hole => exact hole
    | text str => exact text str
    | rule args link =>
      refine rule args link fun u hu => ih (sizeOf u) ?_ u rfl
      rw [← hsize, Unfolded.rule.sizeOf_spec]
      have := sizeOf_lt_of_mem hu
      omega

/-! ## A file that grows -/

/-- All objects stay as they are, but the header and the lists at given positions. -/
structure Keeps (changed : List Nat) (img img' : Image) : Prop where
  grows : Grows img img'
  objects : ∀ p o, p ∉ changed → o.type ≠ .filehdr → ObjectIn img p o → ObjectIn img' p o

section Growth

variable {busy busy' changed : List Nat} {img img' img'' : Image} {offs : Offset} {body : List Byte}
  {items : List Unfolded} {str : Option CText} {p n : Nat}

theorem Keeps.refl (img : Image) : Keeps changed img img := ⟨.refl img, fun _ _ _ _ h => h⟩

theorem Keeps.trans (h : Keeps changed img img') (h' : Keeps changed img' img'') :
    Keeps changed img img'' where
  grows := h.grows.trans h'.grows
  objects p o hp htype ho := h'.objects p o hp htype (h.objects p o hp htype ho)

theorem Keeps.weaken (h : Keeps [] img img') : Keeps changed img img' :=
  ⟨h.grows, fun p o _ => h.objects p o not_mem_nil⟩

theorem Keeps.trans_fresh (h : Keeps [] img img') (h' : Keeps [p] img' img'')
    (hfresh : img.length ≤ p) : Keeps [] img img'' where
  grows := h.grows.trans h'.grows
  objects q o _ htype ho := by
    have hne : q ≠ p := Nat.ne_of_lt (Nat.lt_of_lt_of_le ho.lt_length hfresh)
    exact h'.objects q o (fun hmem => hne (mem_singleton.1 hmem)) htype
      (h.objects q o not_mem_nil htype ho)

theorem keeps_append {new : NewObject} (hlimit : (Image.append img new).length < 2 ^ 32) :
    Keeps [] img (Image.append img new) :=
  ⟨grows_append hlimit, fun _ _ _ htype ho => ho.append htype hlimit⟩

theorem TextAt.grows (h : TextAt img offs str) (hgrows : Grows img img') :
    TextAt img' offs str := by
  cases str with
  | none => exact h
  | some str => exact HasName.grows h hgrows

theorem TextAt.of_word {k : Nat} (h : TextAt img offs str)
    (hword : Image.word body k = offs) : TextAt img (Image.word body k) str := by
  rw [hword]
  exact h

theorem RuleArgs.At.grows {args : RuleArgs} (h : args.At img body)
    (hgrows : Grows img img') : args.At img' body :=
  { h with
    name := h.name.grows hgrows
    selector := h.selector.grows hgrows
    actionStr := h.actionStr.grows hgrows
    conditionStr := h.conditionStr.grows hgrows
    binaryName := h.binaryName.grows hgrows
    execPolicyName := h.execPolicyName.grows hgrows }

/-- Objects that are complete in one file are so in another one. -/
structure Carries (busy : List Nat) (img : Image) (busy' : List Nat) (img' : Image) : Prop where
  grows : Grows img img'
  objects : ∀ p o, p ∉ busy → o.type ≠ .filehdr → ObjectIn img p o →
    p ∉ busy' ∧ ObjectIn img' p o

theorem Keeps.carries (h : Keeps [] img img') : Carries busy img busy img' :=
  ⟨h.grows, fun p o hp htype ho => ⟨hp, h.objects p o not_mem_nil htype ho⟩⟩

theorem Keeps.carries_busy (h : Keeps [p] img img') (hp : p ∈ busy) :
    Carries busy img busy img' := by
  refine ⟨h.grows, fun q o hq htype ho => ⟨hq, h.objects q o (fun hmem => ?_) htype ho⟩⟩
  rw [mem_singleton.1 hmem] at hq
  exact hq hp

theorem Keeps.carries_fresh (h : Keeps [] img img') (hfresh : img.length ≤ p) :
    Carries busy img (p :: busy) img' := by
  refine ⟨h.grows, fun q o hq htype ho => ⟨fun hmem => ?_, h.objects q o not_mem_nil htype ho⟩⟩
  rcases mem_cons.1 hmem with rfl | hmem
  · exact absurd ho.lt_length (Nat.not_lt.2 hfresh)
  · exact hq hmem

theorem carries_done (p : Nat) : Carries (p :: busy) img busy img :=
  ⟨.refl img, fun _ _ hq _ ho => ⟨fun hmem => hq (mem_cons_of_mem _ hmem), ho⟩⟩

theorem ListWith.carries {length : Nat} {items items' : List Byte → Prop}
    (h : ListWith busy img length items offs) (hcarries : Carries busy img busy' img')
    (hitems : ∀ body, items body → items' body) : ListWith busy' img' length items' offs := by
  obtain hnil | ⟨hne, hbusy, o, ho, htype, hsize, hbody⟩ := h
  · exact .inl hnil
  · obtain ⟨hbusy', ho'⟩ := hcarries.objects _ o hbusy (by rw [htype]; decide) ho
    exact .inr ⟨hne, hbusy', o, ho', htype, hsize, hitems _ hbody⟩

theorem ItemsAt.imp (hitem : ∀ u ∈ items, ∀ offs,
    u.At busy img offs → u.At busy' img' offs)
    (h : ItemsAt busy img items body n) : ItemsAt busy' img' items body n := by
  induction items generalizing n with
  | nil => trivial
  | cons u items ih =>
    exact ⟨hitem u mem_cons_self _ h.1,
      ih (fun u hu => hitem u (mem_cons_of_mem _ hu)) h.2⟩

/-- What is complete keeps its meaning. -/
theorem Unfolded.At.carries {u : Unfolded} (hcarries : Carries busy img busy' img')
    (h : u.At busy img offs) : u.At busy' img' offs := by
  induction u using Unfolded.induct generalizing offs with
  | hole => exact h
  | text str => exact HasName.grows h hcarries.grows
  | rule args link ih =>
    obtain ⟨hbusy, o, ho, htype, hargs, hlink⟩ := h
    obtain ⟨hbusy', ho'⟩ := hcarries.objects _ o hbusy (by rw [htype]; decide) ho
    exact ⟨hbusy', o, ho', htype, hargs.grows hcarries.grows,
      hlink.carries hcarries fun _ => ItemsAt.imp fun u hu _ => ih u hu⟩

theorem ItemsAt.carries (h : ItemsAt busy img items body n)
    (hcarries : Carries busy img busy' img') : ItemsAt busy' img' items body n :=
  h.imp fun _ _ _ => Unfolded.At.carries hcarries

theorem ListAt.carries (h : ListAt busy img items offs)
    (hcarries : Carries busy img busy' img') : ListAt busy' img' items offs :=
  ListWith.carries h hcarries fun _ hitems => hitems.carries hcarries

end Growth

/-! ## One meaning -/

section Unique

variable {busy : List Nat} {img : Image} {offs : Offset} {items items' : List Unfolded}
  {body : List Byte} {length' length : Nat} {str : CText}

theorem HasName.unique {str' : CText} (h : HasName img offs str) (h' : HasName img offs str') :
    str = str' := by
  obtain ⟨o, ho, -, hbody⟩ := h
  obtain ⟨o', ho', -, hbody'⟩ := h'
  cases ho.unique ho'
  rw [hbody] at hbody'
  cases str
  cases str'
  cases append_cancel_right hbody'
  rfl

theorem HasName.ne_zero (h : HasName img offs str) : offs ≠ 0 := by
  obtain ⟨o, ho, htype, -⟩ := h
  rintro rfl
  exact ho.ne_zero (by rw [htype]; decide) rfl

theorem TextAt.unique {str str' : Option CText} (h : TextAt img offs str)
    (h' : TextAt img offs str') : str = str' := by
  cases str with
  | none =>
    cases str' with
    | none => rfl
    | some str' => exact absurd h h'.ne_zero
  | some str =>
    cases str' with
    | none => exact absurd h' h.ne_zero
    | some str' => rw [HasName.unique h h']

theorem RuleArgs.At.unique {args args' : RuleArgs} (h : args.At img body)
    (h' : args'.At img body) : args = args' := by
  obtain ⟨⟩ := args
  obtain ⟨⟩ := args'
  simp only [RuleArgs.mk.injEq]
  exact ⟨h.name.unique h'.name, h.selectorType.symm.trans h'.selectorType,
    h.selector.unique h'.selector, h.actionType.symm.trans h'.actionType,
    h.actionStr.unique h'.actionStr, h.conditionType.symm.trans h'.conditionType,
    h.conditionStr.unique h'.conditionStr, h.flags.symm.trans h'.flags,
    h.binaryName.unique h'.binaryName, h.funcClass.symm.trans h'.funcClass,
    h.execPolicyName.unique h'.execPolicyName⟩

/-- The lengths of two lists at one offset are equal, and so are their items if they are. -/
theorem ListWith.length_eq {items items' : List Byte → Prop}
    (h : ListWith busy img length items offs) (h' : ListWith busy img length' items' offs) :
    length = length' := by
  obtain ⟨rfl, hzero⟩ | ⟨-, -, o, ho, htype, rfl, -⟩ := h
  · obtain ⟨rfl, -⟩ | ⟨-, -, o, ho, htype, -⟩ := h'
    · rfl
    · rw [hzero] at ho
      exact absurd rfl (ho.ne_zero (by rw [htype]; decide))
  · obtain ⟨-, rfl⟩ | ⟨-, -, o', ho', -, rfl, -⟩ := h'
    · exact absurd rfl (ho.ne_zero (by rw [htype]; decide))
    · rw [ho.unique ho']

theorem ListWith.items_of_ne {items items' : List Byte → Prop}
    (h : ListWith busy img length items offs) (h' : ListWith busy img length' items' offs)
    (hne : length ≠ 0) : ∃ body, items body ∧ items' body := by
  have hlength := h.length_eq h'
  obtain ⟨hzero, -⟩ | ⟨-, -, o, ho, -, -, hitems⟩ := h
  · exact absurd hzero hne
  · obtain ⟨hzero, -⟩ | ⟨-, -, o', ho', -, -, hitems'⟩ := h'
    · exact absurd (hlength.trans hzero) hne
    · rw [← ho.unique ho'] at hitems'
      exact ⟨o.body, hitems, hitems'⟩

theorem ItemsAt.unique (hlength : items.length = items'.length)
    (hitem : ∀ u ∈ items, ∀ u' offs, u.At busy img offs → u'.At busy img offs → u = u') {n : Nat}
    (h : ItemsAt busy img items body n) (h' : ItemsAt busy img items' body n) : items = items' := by
  induction items generalizing items' n with
  | nil => exact (length_eq_zero_iff.1 hlength.symm).symm
  | cons u items ih =>
    cases items' with
    | nil => cases hlength
    | cons u' items' =>
      rw [hitem u mem_cons_self u' _ h.1 h'.1, ih (Nat.succ.inj hlength)
        (fun u hu => hitem u (mem_cons_of_mem _ hu)) h.2 h'.2]

theorem ListAt.unique_of
    (hitem : ∀ u ∈ items, ∀ u' offs, u.At busy img offs → u'.At busy img offs → u = u')
    (h : ListAt busy img items offs) (h' : ListAt busy img items' offs) : items = items' := by
  have hlength : items.length = items'.length := ListWith.length_eq h h'
  by_cases hnil : items.length = 0
  · rw [length_eq_zero_iff.1 hnil, length_eq_zero_iff.1 (hlength.symm.trans hnil)]
  · obtain ⟨body, hitems, hitems'⟩ := ListWith.items_of_ne h h' hnil
    exact hitems.unique hlength hitem hitems'

/-- What is at an offset has one meaning only. -/
theorem Unfolded.At.unique {u u' : Unfolded} (h : u.At busy img offs) (h' : u'.At busy img offs) :
    u = u' := by
  induction u using Unfolded.induct generalizing u' offs with
  | hole =>
    cases u' with
    | hole => rfl
    | text str => exact absurd h (HasName.ne_zero h')
    | rule args link =>
      obtain ⟨-, o, ho, htype, -⟩ := h'
      rw [show offs = 0 from h] at ho
      exact absurd rfl (ho.ne_zero (by rw [htype]; decide))
  | text str =>
    cases u' with
    | hole => exact absurd h' (HasName.ne_zero h)
    | text str' => rw [HasName.unique h h']
    | rule args link =>
      obtain ⟨o, ho, htype, -⟩ := h
      obtain ⟨-, o', ho', htype', -⟩ := h'
      rw [ho.unique ho', htype'] at htype
      cases htype
  | rule args link ih =>
    obtain ⟨-, o, ho, htype, hargs, hlink⟩ := h
    cases u' with
    | hole =>
      rw [show offs = 0 from h'] at ho
      exact absurd rfl (ho.ne_zero (by rw [htype]; decide))
    | text str =>
      obtain ⟨o', ho', htype', -⟩ := h'
      rw [ho.unique ho', htype'] at htype
      cases htype
    | rule args' link' =>
      obtain ⟨-, o', ho', -, hargs', hlink'⟩ := h'
      cases ho.unique ho'
      rw [hargs.unique hargs',
        ListAt.unique_of (fun u hu _ _ hat => ih u hu hat) hlink hlink']

theorem ListAt.unique (h : ListAt busy img items offs)
    (h' : ListAt busy img items' offs) : items = items' :=
  ListAt.unique_of (fun _ _ _ _ => Unfolded.At.unique) h h'

theorem ListAt.length_lt (h : ListAt busy img items offs) : items.length < 2 ^ 32 := by
  obtain ⟨hnil, -⟩ | ⟨-, -, o, -, -, hsize, -⟩ := h
  · rw [hnil]
    decide
  · rw [← hsize]
    exact (Image.word o.body 0).isLt

end Unique

end Scratchbox
