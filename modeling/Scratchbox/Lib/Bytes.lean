import Mathlib.Algebra.Group.Nat.Defs

/-!
# Bytes

Numbers as bytes in little-endian order, and lists that are read and overwritten at a place.
-/

namespace Bytes

open List

/-! ## Numbers -/

abbrev Byte := BitVec 8

def leBytes : Nat → Nat → List Byte
  | 0, _ => []
  | k + 1, n => BitVec.ofNat 8 n :: leBytes k (n / 256)

def leValue : List Byte → Nat
  | [] => 0
  | b :: bs => b.toNat + 256 * leValue bs

@[simp]
theorem length_leBytes (k n : Nat) : (leBytes k n).length = k := by
  induction k generalizing n with
  | zero => rfl
  | succ k ih => rw [leBytes, length_cons, ih]

theorem leValue_leBytes (k n : Nat) : leValue (leBytes k n) = n % 256 ^ k := by
  induction k generalizing n with
  | zero => rw [leBytes, leValue, Nat.pow_zero, Nat.mod_one]
  | succ k ih =>
    have hpow : 256 ^ (k + 1) = 256 * 256 ^ k := by rw [Nat.pow_succ, Nat.mul_comm]
    rw [leBytes, leValue, ih, BitVec.toNat_ofNat, hpow, Nat.mod_mul]

variable {len k n s : Nat}

theorem leValue_leBytes_of_lt (h : n < 256 ^ k) : leValue (leBytes k n) = n := by
  rw [leValue_leBytes, Nat.mod_eq_of_lt h]

theorem leBytes_injective {m : Nat} (hm : m < 256 ^ k) (hn : n < 256 ^ k)
    (h : leBytes k m = leBytes k n) : m = n := by
  rw [← leValue_leBytes_of_lt hm, h, leValue_leBytes_of_lt hn]

/-! ## Places in a list -/

variable {α : Type}

def slice (l : List α) (start len : Nat) : List α := (l.drop start).take len

def patch (l : List α) (start : Nat) (data : List α) : List α :=
  l.take start ++ data ++ l.drop (start + data.length)

variable {l : List α} {start : Nat} {data : List α}

theorem slice_append_left (r : List α) (h : start + len ≤ l.length) :
    slice (l ++ r) start len = slice l start len := by
  rw [slice, drop_append_of_le_length (Nat.le_trans (Nat.le_add_right _ _) h),
    take_append_of_le_length]
  · rfl
  · rw [length_drop]
    exact Nat.le_sub_of_add_le' h

theorem slice_append_right (l r : List α) (start len : Nat) :
    slice (l ++ r) (l.length + start) len = slice r start len := by
  rw [slice, drop_length_add_append]
  rfl

theorem length_patch (h : start + data.length ≤ l.length) :
    (patch l start data).length = l.length := by
  rw [patch, length_append, length_append, length_take, length_drop,
    Nat.min_eq_left (Nat.le_trans (Nat.le_add_right _ _) h), Nat.add_sub_cancel' h]

theorem patch_append_left (r : List α) (h : start + data.length ≤ l.length) :
    patch (l ++ r) start data = patch l start data ++ r := by
  rw [patch, take_append_of_le_length (Nat.le_trans (Nat.le_add_right _ _) h),
    drop_append_of_le_length h, ← append_assoc]
  rfl

theorem patch_append_right (l r : List α) (start : Nat) (data : List α) :
    patch (l ++ r) (l.length + start) data = l ++ patch r start data := by
  rw [patch, take_length_add_append, Nat.add_assoc, drop_length_add_append,
    append_assoc, append_assoc, patch, append_assoc]

theorem slice_patch_self (h : start ≤ l.length) :
    slice (patch l start data) start data.length = data := by
  have hlength : (l.take start).length = start := by rw [length_take, Nat.min_eq_left h]
  have hright := slice_append_right (l.take start) (data ++ l.drop (start + data.length)) 0
    data.length
  rw [hlength, Nat.add_zero] at hright
  rw [patch, append_assoc, hright, slice, drop_zero, take_left]

theorem slice_patch_before (hstart : start ≤ l.length) (h : s + len ≤ start) :
    slice (patch l start data) s len = slice l s len := by
  have hlength : (l.take start).length = start := by
    rw [length_take, Nat.min_eq_left hstart]
  have hs : s + len ≤ (l.take start).length := by rw [hlength]; exact h
  have hl := slice_append_left (l.drop start) hs
  rw [take_append_drop] at hl
  rw [patch, append_assoc, slice_append_left _ hs, hl]

theorem slice_patch_behind (hstart : start + data.length ≤ l.length)
    (h : start + data.length ≤ s) : slice (patch l start data) s len = slice l s len := by
  obtain ⟨k, rfl⟩ := Nat.exists_eq_add_of_le h
  have hlength : (l.take start ++ data).length = start + data.length := by
    rw [length_append, length_take,
      Nat.min_eq_left (Nat.le_trans (Nat.le_add_right _ _) hstart)]
  have hright := slice_append_right (l.take start ++ data) (l.drop (start + data.length)) k len
  rw [hlength] at hright
  rw [patch, hright, slice, slice, drop_drop]

theorem length_le_patch (l : List α) (start : Nat) (data : List α) :
    l.length ≤ (patch l start data).length := by
  rw [patch, length_append, length_append, length_take, length_drop]
  omega

theorem patch_patch {first second : List α} (hlength : first.length = second.length)
    (h : start + second.length ≤ l.length) :
    patch (patch l start first) start second = patch l start second := by
  have hstart : (l.take start).length = start := by
    rw [length_take, Nat.min_eq_left (Nat.le_trans (Nat.le_add_right _ _) h)]
  have hright := patch_append_right (l.take start) (first ++ l.drop (start + first.length)) 0 second
  rw [hstart, Nat.add_zero, ← append_assoc] at hright
  rw [patch.eq_def l start first, hright, patch.eq_def _ 0, take_zero, nil_append,
    Nat.zero_add, ← hlength, drop_left, patch, ← append_assoc, hlength]

theorem getElem?_patch {i : Nat} (hfit : start + data.length ≤ l.length)
    (h : i < start ∨ start + data.length ≤ i) : (patch l start data)[i]? = l[i]? := by
  have hstart : start ≤ l.length := Nat.le_trans (Nat.le_add_right _ _) hfit
  have hone : ∀ l : List α, l[i]? = (slice l i 1).head? := fun l => by
    rw [slice, head?_take, if_neg Nat.one_ne_zero, head?_drop]
  rw [hone, hone]
  rcases h with h | h
  · rw [slice_patch_before hstart h]
  · rw [slice_patch_behind hfit h]

end Bytes
