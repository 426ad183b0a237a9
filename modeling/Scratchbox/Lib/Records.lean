import Scratchbox.Lib.Bytes

/-!
# Sequences of records

Records of different lengths that are written one directly behind the other, and found again by
their positions. A record that is overwritten by one of the same length does not move the
others.
-/

open Bytes

/-- How records are written: never as nothing, and so that a reader knows where one ends. -/
structure RecordFormat (α β : Type) where
  encode : α → List β
  encode_pos : ∀ a, 0 < (encode a).length
  encode_injective : ∀ {a a' : α} {r r' : List β}, encode a ++ r = encode a' ++ r' → a = a' ∧ r = r'

namespace RecordFormat

variable {α β : Type} (fmt : RecordFormat α β)

def encodeAll (records : List α) : List β := records.flatMap fmt.encode

def recordAt : List α → Nat → Option α
  | [], _ => none
  | a :: records, p =>
    if p = 0 then some a
    else if p < (fmt.encode a).length then none
    else recordAt records (p - (fmt.encode a).length)

def setRecord : List α → Nat → α → List α
  | [], _, _ => []
  | a :: records, p, new =>
    if p = 0 then new :: records else a :: setRecord records (p - (fmt.encode a).length) new

variable {fmt} {records : List α} {p q : Nat} {a new : α} {first : α}

theorem encodeAll_cons (a : α) (records : List α) :
    fmt.encodeAll (a :: records) = fmt.encode a ++ fmt.encodeAll records := rfl

theorem encodeAll_singleton (a : α) : fmt.encodeAll [a] = fmt.encode a :=
  List.append_nil (fmt.encode a)

theorem encodeAll_append (records records' : List α) :
    fmt.encodeAll (records ++ records') = fmt.encodeAll records ++ fmt.encodeAll records' :=
  List.flatMap_append

theorem length_encodeAll_cons_pos (fmt : RecordFormat α β) (a : α) (records : List α) :
    0 < (fmt.encodeAll (a :: records)).length := by
  rw [encodeAll_cons, List.length_append]
  exact Nat.add_pos_left (fmt.encode_pos a) _

theorem encodeAll_injective {records records' : List α}
    (h : fmt.encodeAll records = fmt.encodeAll records') : records = records' := by
  induction records generalizing records' with
  | nil =>
    cases records' with
    | nil => rfl
    | cons a records' =>
      have hpos := fmt.length_encodeAll_cons_pos a records'
      rw [← h] at hpos
      cases hpos
  | cons a records ih =>
    cases records' with
    | nil =>
      have hpos := fmt.length_encodeAll_cons_pos a records
      rw [h] at hpos
      cases hpos
    | cons a' records' =>
      obtain ⟨rfl, hrest⟩ := fmt.encode_injective h
      rw [ih hrest]

/-! ## Positions -/

theorem recordAt_zero (a : α) (records : List α) : fmt.recordAt (a :: records) 0 = some a := rfl

theorem recordAt_cons_of_ne (h : fmt.recordAt (first :: records) p = some a) (hp : p ≠ 0) :
    ∃ q, p = (fmt.encode first).length + q ∧ fmt.recordAt records q = some a := by
  rw [recordAt, if_neg hp] at h
  split at h
  · cases h
  · rename_i hle
    exact ⟨_, (Nat.add_sub_cancel' (Nat.le_of_not_lt hle)).symm, h⟩

theorem length_add_ne_zero (first : α) (q : Nat) : (fmt.encode first).length + q ≠ 0 :=
  Nat.ne_of_gt (Nat.add_pos_left (fmt.encode_pos first) q)

theorem recordAt_cons_add (first : α) (records : List α) (q : Nat) :
    fmt.recordAt (first :: records) ((fmt.encode first).length + q) = fmt.recordAt records q := by
  rw [recordAt, if_neg (length_add_ne_zero first q),
    if_neg (Nat.not_lt.2 (Nat.le_add_right _ _)), Nat.add_sub_cancel_left]

theorem setRecord_cons_add (first : α) (records : List α) (q : Nat) (new : α) :
    fmt.setRecord (first :: records) ((fmt.encode first).length + q) new =
      first :: fmt.setRecord records q new := by
  rw [setRecord, if_neg (length_add_ne_zero first q), Nat.add_sub_cancel_left]

theorem recordAt_cons_cases (h : fmt.recordAt (first :: records) p = some a) :
    (p = 0 ∧ first = a) ∨
      ∃ q, p = (fmt.encode first).length + q ∧ fmt.recordAt records q = some a := by
  by_cases hp : p = 0
  · rw [hp, recordAt_zero] at h
    exact .inl ⟨hp, Option.some.inj h⟩
  · exact .inr (recordAt_cons_of_ne h hp)

section

variable (h : fmt.recordAt records p = some a) {k : Nat}

include h

theorem recordAt_end :
    p + (fmt.encode a).length ≤ (fmt.encodeAll records).length := by
  induction records generalizing p with
  | nil => cases h
  | cons first records ih =>
    rw [encodeAll_cons, List.length_append]
    rcases recordAt_cons_cases h with ⟨rfl, rfl⟩ | ⟨q, rfl, hq⟩
    · rw [Nat.zero_add]
      exact Nat.le_add_right _ _
    · rw [Nat.add_assoc]
      exact Nat.add_le_add_left (ih hq) _

theorem slice_encodeAll {len : Nat} (hfits : k + len ≤ (fmt.encode a).length) :
    slice (fmt.encodeAll records) (p + k) len = slice (fmt.encode a) k len := by
  induction records generalizing p with
  | nil => cases h
  | cons first records ih =>
    rw [encodeAll_cons]
    rcases recordAt_cons_cases h with ⟨rfl, rfl⟩ | ⟨q, rfl, hq⟩
    · rw [Nat.zero_add, slice_append_left _ hfits]
    · rw [Nat.add_assoc, slice_append_right, ih hq]

theorem patch_encodeAll {data : List β} (hfits : k + data.length ≤ (fmt.encode a).length)
    (hnew : fmt.encode new = patch (fmt.encode a) k data) :
    patch (fmt.encodeAll records) (p + k) data = fmt.encodeAll (fmt.setRecord records p new) := by
  induction records generalizing p with
  | nil => cases h
  | cons first records ih =>
    rcases recordAt_cons_cases h with ⟨rfl, rfl⟩ | ⟨q, rfl, hq⟩
    · rw [setRecord, if_pos rfl, encodeAll_cons, encodeAll_cons, Nat.zero_add,
        patch_append_left _ hfits, hnew]
    · rw [setRecord_cons_add, encodeAll_cons, encodeAll_cons, Nat.add_assoc, patch_append_right,
        ih hq]

theorem recordAt_setRecord_self :
    fmt.recordAt (fmt.setRecord records p new) p = some new := by
  induction records generalizing p with
  | nil => cases h
  | cons first records ih =>
    rcases recordAt_cons_cases h with ⟨rfl, -⟩ | ⟨q, rfl, hq⟩
    · rw [setRecord, if_pos rfl, recordAt_zero]
    · rw [setRecord_cons_add, recordAt_cons_add, ih hq]

theorem recordAt_setRecord_of_ne
    (hlength : (fmt.encode new).length = (fmt.encode a).length) (hne : q ≠ p) :
    fmt.recordAt (fmt.setRecord records p new) q = fmt.recordAt records q := by
  induction records generalizing p q with
  | nil => cases h
  | cons first records ih =>
    rcases recordAt_cons_cases h with ⟨rfl, rfl⟩ | ⟨p', rfl, hp'⟩
    · rw [setRecord, if_pos rfl, recordAt, recordAt, if_neg hne, if_neg hne, hlength]
    · rw [setRecord_cons_add, recordAt, recordAt]
      by_cases hq : q = 0
      · rw [if_pos hq, if_pos hq]
      · rw [if_neg hq, if_neg hq]
        split
        · rfl
        · rename_i hle
          refine ih hp' fun heq => hne ?_
          rw [← heq, Nat.add_sub_cancel' (Nat.le_of_not_lt hle)]

theorem recordAt_setRecord_cases
    (hlength : (fmt.encode new).length = (fmt.encode a).length) {a' : α}
    (h' : fmt.recordAt (fmt.setRecord records p new) q = some a') :
    (q = p ∧ a' = new) ∨ (q ≠ p ∧ fmt.recordAt records q = some a') := by
  by_cases hq : q = p
  · rw [hq, recordAt_setRecord_self h] at h'
    cases h'
    exact .inl ⟨hq, rfl⟩
  · rw [recordAt_setRecord_of_ne h hlength hq] at h'
    exact .inr ⟨hq, h'⟩

theorem recordAt_append_left (more : List α) :
    fmt.recordAt (records ++ more) p = some a := by
  induction records generalizing p with
  | nil => cases h
  | cons first records ih =>
    rw [List.cons_append]
    rcases recordAt_cons_cases h with ⟨rfl, rfl⟩ | ⟨q, rfl, hq⟩
    · rw [recordAt_zero]
    · rw [recordAt_cons_add, ih hq]

end

theorem recordAt_append_length (records : List α) (a : α) :
    fmt.recordAt (records ++ [a]) (fmt.encodeAll records).length = some a := by
  induction records with
  | nil => rfl
  | cons first records ih =>
    rw [List.cons_append, encodeAll_cons, List.length_append, recordAt_cons_add, ih]

theorem recordAt_append_cases {last : α} (h : fmt.recordAt (records ++ [last]) p = some a) :
    fmt.recordAt records p = some a ∨ p = (fmt.encodeAll records).length ∧ a = last := by
  induction records generalizing p with
  | nil =>
    rcases recordAt_cons_cases h with ⟨rfl, rfl⟩ | ⟨q, rfl, hq⟩
    · exact .inr ⟨rfl, rfl⟩
    · cases hq
  | cons first records ih =>
    rcases recordAt_cons_cases h with ⟨rfl, rfl⟩ | ⟨q, rfl, hq⟩
    · exact .inl (recordAt_zero _ _)
    · rw [recordAt_cons_add, encodeAll_cons, List.length_append]
      rcases ih hq with hold | ⟨rfl, ha⟩
      · exact .inl hold
      · exact .inr ⟨rfl, ha⟩

end RecordFormat
