import Mathlib.Logic.Relation

/-!
# Call trees

A function that calls itself without an obvious measure is modelled in two steps. Its body is a
total function from questions to call trees: a tree returns, stops in a fault, reports an event, or
asks another question and goes on with the answer. The recursion itself is closed by `level`, which
answers questions up to a given depth. `Yields` is the big-step meaning of a tree.
-/

theorem Except.ok_bind {ε α β : Type} (a : α) (f : α → Except ε β) : (Except.ok a >>= f) = f a :=
  rfl

theorem Except.bind_eq_ok_iff {ε α β : Type} {x : Except ε α} {f : α → Except ε β} {b : β} :
    (x >>= f) = .ok b ↔ ∃ a, x = .ok a ∧ f a = .ok b := by
  cases x with
  | error e => simp [Bind.bind, Except.bind]
  | ok a => simp [Bind.bind, Except.bind]

/-- A computation that may ask questions of type `Q`, answered by values of type
`A`, report events of type `E` and stop in a fault of type `F`. -/
inductive CallTree (Q A E F α : Type) where
  | ret (a : α)
  | fault (f : F)
  | log (e : E) (next : CallTree Q A E F α)
  | call (q : Q) (next : A → CallTree Q A E F α)

namespace CallTree

variable {Q A E F α β γ : Type}

/-! ## The monad -/

/-- Sequential composition: the second computation takes over at each return. -/
def bind : CallTree Q A E F α → (α → CallTree Q A E F β) → CallTree Q A E F β
  | ret a, f => f a
  | fault x, _ => fault x
  | log e t, f => log e (t.bind f)
  | call q k, f => call q fun a => (k a).bind f

instance : Monad (CallTree Q A E F) where
  pure := ret
  bind := bind

def report (e : E) : CallTree Q A E F Unit := log e (ret ())

/-- Asks one question. -/
def ask (q : Q) : CallTree Q A E F A := call q ret

/-- Embeds a computation that can only fail. -/
def ofExcept : Except F α → CallTree Q A E F α
  | .ok a => ret a
  | .error f => fault f

@[simp] theorem pure_eq (a : α) : (pure a : CallTree Q A E F α) = ret a := rfl

@[simp] theorem ret_bind (a : α) (f : α → CallTree Q A E F β) : (ret a >>= f) = f a := rfl

@[simp] theorem fault_bind (x : F) (f : α → CallTree Q A E F β) :
    ((fault x : CallTree Q A E F α) >>= f) = fault x := rfl

@[simp] theorem log_bind (e : E) (t : CallTree Q A E F α) (f : α → CallTree Q A E F β) :
    (log e t >>= f) = log e (t >>= f) := rfl

@[simp] theorem call_bind (q : Q) (k : A → CallTree Q A E F α) (f : α → CallTree Q A E F β) :
    (call q k >>= f) = call q fun a => k a >>= f := rfl

@[simp] theorem ofExcept_ok (a : α) : (ofExcept (.ok a) : CallTree Q A E F α) = ret a := rfl

@[simp] theorem ofExcept_error (x : F) :
    (ofExcept (.error x) : CallTree Q A E F α) = fault x := rfl

theorem id_map_eq (t : CallTree Q A E F α) : (id <$> t) = t := by
  induction t with
  | ret a => rfl
  | fault x => rfl
  | log e t ih => exact congrArg (log e) ih
  | call q k ih => exact congrArg (call q) (funext ih)

theorem bind_assoc_eq (t : CallTree Q A E F α) (f : α → CallTree Q A E F β)
    (g : β → CallTree Q A E F γ) : (t >>= f >>= g) = t >>= fun a => f a >>= g := by
  induction t with
  | ret a => rfl
  | fault x => rfl
  | log e t ih => exact congrArg (log e) ih
  | call q k ih => exact congrArg (call q) (funext ih)

instance : LawfulMonad (CallTree Q A E F) :=
  LawfulMonad.mk' _ id_map_eq (fun _ _ => rfl) bind_assoc_eq

/-! ## Running a tree -/

/-- How a run ends: with a value, in a fault, or not within the given depth. -/
inductive Outcome (F α : Type) where
  | ok (a : α)
  | fault (f : F)
  | unfinished
  deriving DecidableEq, Repr

theorem Outcome.ne_unfinished_of_eq_ok {r : List E × Outcome F α} {es : List E} {a : α}
    (h : r = (es, .ok a)) : r.2 ≠ .unfinished := by
  intro hu
  rw [h] at hu
  cases hu

/-- Runs a tree against given answers and collects the events in order. A
question that is not answered with a value ends the run. -/
def run (answer : Q → List E × Outcome F A) : CallTree Q A E F α → List E × Outcome F α
  | ret a => ([], .ok a)
  | fault f => ([], .fault f)
  | log e t => (e :: (t.run answer).1, (t.run answer).2)
  | call q k =>
    match answer q with
    | (es, .ok a) => (es ++ ((k a).run answer).1, ((k a).run answer).2)
    | (es, .fault f) => (es, .fault f)
    | (es, .unfinished) => (es, .unfinished)

/-- Answers a question with at most `n` nested bodies. -/
def level (body : Q → CallTree Q A E F A) : Nat → Q → List E × Outcome F A
  | 0, _ => ([], .unfinished)
  | n + 1, q => (body q).run (level body n)

variable {body : Q → CallTree Q A E F A} {n m : Nat}

section Inversion

variable {answer : Q → List E × Outcome F A} {t : CallTree Q A E F α} {es : List E}

theorem run_log {e : E} {o : Outcome F α} :
    (log e t).run answer = (es, o) ↔ ∃ es', es = e :: es' ∧ t.run answer = (es', o) := by
  rcases hr : t.run answer with ⟨es', o'⟩
  simp only [run, hr, Prod.mk.injEq]
  grind

theorem run_call {q : Q} {k : A → CallTree Q A E F α} {a : α} :
    (call q k).run answer = (es, .ok a) ↔ ∃ es₁ b es₂,
      answer q = (es₁, .ok b) ∧ (k b).run answer = (es₂, .ok a) ∧ es = es₁ ++ es₂ := by
  constructor
  · intro h
    rcases hq : answer q with ⟨es₁, b | f | _⟩
    · rcases hk : (k b).run answer with ⟨es₂, o⟩
      simp only [run, hq, hk, Prod.mk.injEq] at h
      exact ⟨es₁, b, es₂, rfl, by rw [hk, h.2], h.1.symm⟩
    · simp [run, hq] at h
    · simp [run, hq] at h
  · rintro ⟨es₁, b, es₂, hq, hk, rfl⟩
    simp only [run, hq, hk]

end Inversion

theorem run_mono {answer answer' : Q → List E × Outcome F A}
    (h : ∀ q, (answer q).2 ≠ .unfinished → answer' q = answer q)
    (t : CallTree Q A E F α) (ht : (t.run answer).2 ≠ .unfinished) :
    t.run answer' = t.run answer := by
  induction t with
  | ret a => rfl
  | fault f => rfl
  | log e t ih =>
    simp only [run] at ht ⊢
    rw [ih ht]
  | call q k ih =>
    have hq : (answer q).2 ≠ .unfinished := by
      intro hu
      apply ht
      simp only [run]
      rw [show answer q = ((answer q).1, .unfinished) from Prod.ext rfl hu]
    simp only [run, h q hq] at ht ⊢
    rcases hr : answer q with ⟨es, a | f | _⟩
    · simp only [hr] at ht ⊢
      rw [ih a ht]
    · rfl
    · rfl

theorem level_succ (n : Nat) (q : Q) (h : (level body n q).2 ≠ .unfinished) :
    level body (n + 1) q = level body n q := by
  induction n generalizing q with
  | zero => exact absurd rfl h
  | succ n ih => exact run_mono ih (body q) h

theorem level_mono (hnm : n ≤ m) (q : Q)
    (h : (level body n q).2 ≠ .unfinished) : level body m q = level body n q := by
  induction hnm with
  | refl => rfl
  | step _ ih => rw [level_succ _ q (ih ▸ h), ih]

theorem run_level_mono (hnm : n ≤ m) (t : CallTree Q A E F α)
    (h : (t.run (level body n)).2 ≠ .unfinished) : t.run (level body m) = t.run (level body n) :=
  run_mono (fun q hq => level_mono hnm q hq) t h

/-! ## The value of a tree -/

def Yields (body : Q → CallTree Q A E F A) (t : CallTree Q A E F α) (es : List E) (a : α) :
    Prop :=
  ∃ n, t.run (level body n) = (es, .ok a)

def Answers (body : Q → CallTree Q A E F A) (q : Q) (es : List E) (a : A) : Prop :=
  Yields body (body q) es a

variable {es : List E} {t : CallTree Q A E F α} {a : α} {q : Q}

theorem answers_of_level {a : A} (h : level body n q = (es, .ok a)) : Answers body q es a := by
  cases n with
  | zero => cases h
  | succ n => exact ⟨n, h⟩

theorem Answers.exists_level {a : A} (h : Answers body q es a) :
    ∃ n, level body n q = (es, .ok a) := by
  obtain ⟨n, hn⟩ := h
  exact ⟨n + 1, hn⟩

theorem Yields.run_eq (h : Yields body t es a)
    (hn : (t.run (level body n)).2 ≠ .unfinished) : t.run (level body n) = (es, .ok a) := by
  obtain ⟨m, hm⟩ := h
  rw [← run_level_mono (Nat.le_max_left n m) t hn,
    run_level_mono (Nat.le_max_right n m) t (Outcome.ne_unfinished_of_eq_ok hm), hm]

theorem Yields.unique {es' : List E} {a' : α} (h : Yields body t es a) (h' : Yields body t es' a') :
    es = es' ∧ a = a' := by
  obtain ⟨n, hn⟩ := h'
  have heq := h.run_eq (Outcome.ne_unfinished_of_eq_ok hn)
  rw [hn] at heq
  cases heq
  exact ⟨rfl, rfl⟩

@[simp] theorem yields_ret {b : α} : Yields body (ret a) es b ↔ es = [] ∧ b = a := by
  constructor
  · rintro ⟨n, h⟩
    cases h
    exact ⟨rfl, rfl⟩
  · rintro ⟨rfl, rfl⟩
    exact ⟨0, rfl⟩

@[simp] theorem not_yields_fault {f : F} : ¬ Yields body (fault f) es a := by
  rintro ⟨n, h⟩
  cases h

theorem yields_log {e : E} :
    Yields body (log e t) es a ↔ ∃ es', es = e :: es' ∧ Yields body t es' a := by
  constructor
  · rintro ⟨n, h⟩
    obtain ⟨es', hes, h⟩ := run_log.1 h
    exact ⟨es', hes, n, h⟩
  · rintro ⟨es', hes, n, h⟩
    exact ⟨n, run_log.2 ⟨es', hes, h⟩⟩

theorem yields_call {k : A → CallTree Q A E F α} :
    Yields body (call q k) es a ↔
      ∃ es₁ b es₂, Answers body q es₁ b ∧ Yields body (k b) es₂ a ∧ es = es₁ ++ es₂ := by
  constructor
  · rintro ⟨n, h⟩
    obtain ⟨es₁, b, es₂, hq, hk, hes⟩ := run_call.1 h
    exact ⟨es₁, b, es₂, answers_of_level hq, ⟨n, hk⟩, hes⟩
  · rintro ⟨es₁, b, es₂, hq, ⟨m, hm⟩, hes⟩
    obtain ⟨n, hn⟩ := hq.exists_level
    have hn' := level_mono (Nat.le_max_left n m) q (Outcome.ne_unfinished_of_eq_ok hn)
    have hm' := run_level_mono (Nat.le_max_right n m) (k b) (Outcome.ne_unfinished_of_eq_ok hm)
    exact ⟨max n m, run_call.2 ⟨es₁, b, es₂, hn'.trans hn, hm'.trans hm, hes⟩⟩

theorem yields_ofExcept {x : Except F α} :
    Yields body (ofExcept x : CallTree Q A E F α) es a ↔ es = [] ∧ x = .ok a := by
  cases x with
  | error f => simp
  | ok b => simp [eq_comm]

theorem yields_bind {f : α → CallTree Q A E F β} {b : β} :
    Yields body (t >>= f) es b ↔
      ∃ es₁ a es₂, Yields body t es₁ a ∧ Yields body (f a) es₂ b ∧ es = es₁ ++ es₂ := by
  induction t generalizing es with
  | ret a =>
    simp only [ret_bind, yields_ret]
    constructor
    · intro h
      exact ⟨[], a, es, ⟨rfl, rfl⟩, h, rfl⟩
    · rintro ⟨_, _, es₂, ⟨rfl, rfl⟩, h, rfl⟩
      exact h
  | fault x => simp
  | log e t ih =>
    simp only [log_bind, yields_log, ih]
    constructor
    · rintro ⟨_, rfl, es₁, a, es₂, h₁, h₂, rfl⟩
      exact ⟨e :: es₁, a, es₂, ⟨es₁, rfl, h₁⟩, h₂, rfl⟩
    · rintro ⟨_, a, es₂, ⟨es₁, rfl, h₁⟩, h₂, rfl⟩
      exact ⟨es₁ ++ es₂, rfl, es₁, a, es₂, h₁, h₂, rfl⟩
  | call q k ih =>
    simp only [call_bind, yields_call, ih]
    constructor
    · rintro ⟨es₀, c, _, hq, ⟨es₁, a, es₂, h₁, h₂, rfl⟩, rfl⟩
      exact ⟨es₀ ++ es₁, a, es₂, ⟨es₀, c, es₁, hq, h₁, rfl⟩, h₂, (List.append_assoc ..).symm⟩
    · rintro ⟨_, a, es₂, ⟨es₀, c, es₁, hq, h₁, rfl⟩, h₂, rfl⟩
      exact ⟨es₀, c, es₁ ++ es₂, hq, ⟨es₁, a, es₂, h₁, h₂, rfl⟩, List.append_assoc ..⟩

end CallTree
