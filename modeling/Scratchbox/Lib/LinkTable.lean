import Mathlib.Data.Finset.Card
import Mathlib.Data.Finset.Filter

/-!
# Finite tables with counted references

A table from keys to values, several keys of which may lead to one value, as names lead to
files. The number of references tells whether a value would be left without a key.
-/

namespace LinkTable

variable {K V : Type} [DecidableEq K]

structure Table (K V : Type) [DecidableEq K] where
  keys : Finset K
  get : K → Option V
  mem_keys : ∀ key, key ∈ keys ↔ (get key).isSome

namespace Table

variable (table : Table K V)

def Refers (value : V) : Prop := ∃ key, table.get key = some value

def refs [DecidableEq V] (value : V) : Nat :=
  (table.keys.filter fun key => table.get key = some value).card

def empty : Table K V := ⟨∅, fun _ => none, by simp⟩

def put (key : K) (entry : Option V) : Table K V where
  keys := if entry.isSome then insert key table.keys else table.keys.erase key
  get := Function.update table.get key entry
  mem_keys other := by
    rcases eq_or_ne other key with rfl | different
    · cases entry <;> simp
    · cases entry <;> simp [different, table.mem_keys]

variable {table} {key : K} {value : V} {entry : Option V}

theorem put_get (key : K) (entry : Option V) :
    (table.put key entry).get = Function.update table.get key entry := rfl

/-- What is referred to after a change: by the new entry, or as before by another key. -/
theorem refers_put_iff :
    (table.put key entry).Refers value ↔
      entry = some value ∨ ∃ other, other ≠ key ∧ table.get other = some value := by
  constructor
  · rintro ⟨other, found⟩
    rw [put_get, Function.update_apply] at found
    split at found
    next => exact .inl found
    next different => exact .inr ⟨other, different, found⟩
  · rintro (new | ⟨other, different, found⟩)
    · exact ⟨key, by rw [put_get, Function.update_self, new]⟩
    · exact ⟨other, by rw [put_get, Function.update_of_ne different, found]⟩

theorem refs_eq_one_iff [DecidableEq V] (found : table.get key = some value) :
    table.refs value = 1 ↔ ∀ other, table.get other = some value → other = key := by
  have mem (other : K) : other ∈ table.keys.filter (fun key => table.get key = some value) ↔
      table.get other = some value := by
    rw [Finset.mem_filter, table.mem_keys]
    exact and_iff_right_of_imp fun refers => by rw [refers]; rfl
  rw [refs, Finset.card_eq_one]
  constructor
  · rintro ⟨only, keys⟩ other refers
    have single (key : K) (refers : table.get key = some value) : key = only := by
      rw [← Finset.mem_singleton, ← keys, mem]
      exact refers
    rw [single other refers, single key found]
  · intro unique
    refine ⟨key, Finset.ext fun other => ?_⟩
    rw [mem, Finset.mem_singleton]
    constructor
    · exact unique other
    · rintro rfl
      exact found

/-- A value that loses a reference keeps another one, unless it was the only one. -/
theorem refers_replace_iff [DecidableEq V] (found : table.get key = some value)
    (replaced : entry ≠ some value) :
    (table.put key entry).Refers value ↔ table.refs value ≠ 1 := by
  rw [refers_put_iff, or_iff_right replaced, Ne, refs_eq_one_iff found]
  constructor
  · rintro ⟨other, different, refers⟩ unique
    exact different (unique other refers)
  · intro several
    by_contra none
    refine several fun other refers => ?_
    by_contra different
    exact none ⟨other, different, refers⟩

theorem refers_put_iff_of_ne (found : table.get key ≠ some value) (new : entry ≠ some value) :
    (table.put key entry).Refers value ↔ table.Refers value := by
  rw [refers_put_iff, or_iff_right new]
  constructor
  · rintro ⟨other, -, refers⟩
    exact ⟨other, refers⟩
  · rintro ⟨other, refers⟩
    refine ⟨other, ?_, refers⟩
    rintro rfl
    exact found refers

end Table

end LinkTable
