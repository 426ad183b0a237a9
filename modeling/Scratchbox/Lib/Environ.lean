import Mathlib.Data.List.Basic

/-!
# Environment vectors

An environment is a list of texts `NAME=value`, where the first entry with a name counts.
The functions of the C library on it, and what they leave of the other variables.
-/

namespace Environ

open Option

variable {name other value text : List Char} {entry : List Char} {env : List (List Char)}

def value? (name entry : List Char) : Option (List Char) :=
  if (name ++ ['=']).isPrefixOf entry then some (entry.drop (name.length + 1)) else none

def getenv (env : List (List Char)) (name : List Char) : Option (List Char) :=
  env.findSome? (value? name)

def unsetenv (env : List (List Char)) (name : List Char) : List (List Char) :=
  env.filter fun entry => (value? name entry).isNone

/-- The first entry with the name is overwritten, or there is a new one. -/
def setenv : List (List Char) → List Char → List Char → List (List Char)
  | [], name, value => [name ++ '=' :: value]
  | entry :: env, name, value =>
    if (value? name entry).isSome then (name ++ '=' :: value) :: env
    else entry :: setenv env name value

/-! ## Entries -/

theorem value?_eq_some_iff : value? name entry = some value ↔ entry = name ++ '=' :: value := by
  unfold value?
  split
  next isName =>
    obtain ⟨rest, rfl⟩ := List.isPrefixOf_iff_prefix.1 isName
    simp
  next noName =>
    refine iff_of_false (by simp) ?_
    rintro rfl
    exact noName (List.isPrefixOf_iff_prefix.2 ⟨value, by simp⟩)

@[simp] theorem value?_self : value? name (name ++ '=' :: value) = some value :=
  value?_eq_some_iff.2 rfl

theorem name_unique (noEq : '=' ∉ name) (noEq' : '=' ∉ other)
    (same : name ++ '=' :: value = other ++ '=' :: text) : name = other ∧ value = text := by
  induction name generalizing other with
  | nil =>
    cases other with
    | nil => exact ⟨rfl, List.cons.inj same |>.2⟩
    | cons c other =>
      cases (List.cons.inj same).1
      exact absurd List.mem_cons_self noEq'
  | cons c name ih =>
    cases other with
    | nil =>
      cases (List.cons.inj same).1
      exact absurd List.mem_cons_self noEq
    | cons d other =>
      obtain ⟨rfl, rest⟩ := List.cons.inj same
      obtain ⟨rfl, rfl⟩ := ih (fun member => noEq (.tail _ member))
        (fun member => noEq' (.tail _ member)) rest
      exact ⟨rfl, rfl⟩

theorem value?_of_ne (noEq : '=' ∉ name) (noEq' : '=' ∉ other) (ne : other ≠ name) :
    value? name (other ++ '=' :: value) = none := by
  by_contra found
  obtain ⟨text, found⟩ := ne_none_iff_exists'.1 found
  exact ne (name_unique noEq' noEq (value?_eq_some_iff.1 found)).1

/-- A test for the beginning of an entry is one for the beginning of its name. -/
theorem isPrefixOf_entry {start : List Char} (noEq : '=' ∉ start) :
    start.isPrefixOf (name ++ '=' :: value) = start.isPrefixOf name := by
  induction start generalizing name with
  | nil => simp
  | cons c start ih =>
    rw [List.mem_cons, not_or] at noEq
    cases name with
    | nil =>
      have ne : (c == '=') = false := beq_false_of_ne (Ne.symm noEq.1)
      simp [List.isPrefixOf, ne]
    | cons d name => simp only [List.cons_append, List.isPrefixOf, ih noEq.2]

/-! ## Environments -/

theorem getenv_cons : getenv (entry :: env) name = (value? name entry).or (getenv env name) := by
  unfold getenv
  rw [List.findSome?_cons]
  cases value? name entry <;> rfl

theorem getenv_append {env' : List (List Char)} :
    getenv (env ++ env') name = (getenv env name).or (getenv env' name) := by
  unfold getenv
  rw [List.findSome?_append]

theorem getenv_filter {keep : List Char → Bool}
    (keeps : ∀ entry ∈ env, (value? name entry).isSome → keep entry = true) :
    getenv (env.filter keep) name = getenv env name := by
  induction env with
  | nil => rfl
  | cons entry env ih =>
    have rest := ih fun entry member => keeps entry (.tail _ member)
    rw [List.filter_cons, getenv_cons]
    split
    · rw [getenv_cons, rest]
    next dropped =>
      have none : value? name entry = none :=
        not_isSome_iff_eq_none.1 fun found => dropped (keeps entry (.head _) found)
      rw [rest, none, none_or]

theorem getenv_eq_none_iff : getenv env name = none ↔ ∀ entry ∈ env, value? name entry = none :=
  List.findSome?_eq_none_iff

theorem getenv_unsetenv : getenv (unsetenv env name) name = none := by
  rw [getenv_eq_none_iff]
  intro entry member
  exact isNone_iff_eq_none.1 (List.mem_filter.1 member).2

theorem getenv_unsetenv_of_ne (noEq : '=' ∉ name) (noEq' : '=' ∉ other) (ne : other ≠ name) :
    getenv (unsetenv env other) name = getenv env name := by
  refine getenv_filter fun entry _ found => ?_
  obtain ⟨value, found⟩ := isSome_iff_exists.1 found
  rw [value?_eq_some_iff.1 found, value?_of_ne noEq' noEq ne.symm, isNone_none]

theorem getenv_setenv : getenv (setenv env name value) name = some value := by
  induction env with
  | nil => rw [setenv, getenv_cons, value?_self, some_or]
  | cons entry env ih =>
    rw [setenv]
    split
    · rw [getenv_cons, value?_self, some_or]
    next missing =>
      rw [getenv_cons, ih, not_isSome_iff_eq_none.1 missing, none_or]

theorem getenv_setenv_of_ne (noEq : '=' ∉ name) (noEq' : '=' ∉ other) (ne : other ≠ name) :
    getenv (setenv env other value) name = getenv env name := by
  induction env with
  | nil => rw [setenv, getenv_cons, value?_of_ne noEq noEq' ne, none_or]
  | cons entry env ih =>
    rw [setenv]
    split
    next found =>
      obtain ⟨old, found⟩ := isSome_iff_exists.1 found
      rw [getenv_cons, getenv_cons, value?_of_ne noEq noEq' ne, value?_eq_some_iff.1 found,
        value?_of_ne noEq noEq' ne]
    · rw [getenv_cons, getenv_cons, ih]

end Environ
