import Mathlib.Logic.Basic

/-!
# Programs over commands

A program works on a shared state through commands. Its rule of pre- and postconditions is in
two parts: what is taken for granted of each command when it is given (`rely`), and what the
program sees to (`guar`). Commands that keep to both let the state only grow in an order.

`Discipline.Runs.sound`: what a proof by this rule says about the run of a program and about
all commands that are given in it. `Program.Returns.sound`: the rule for programs that have to
return.
-/

/-- A program that gives commands `c : C`, goes on with their answers of type `R c`, and may
stop in a fault. -/
inductive Program (C : Type) (R : C → Type) (F α : Type) where
  | ret (a : α)
  | fault (f : F)
  | step (c : C) (next : R c → Program C R F α)

namespace Program

variable {C : Type} {R : C → Type} {F α β σ : Type}

/-- The second program takes over where the first one returns. -/
def bind : Program C R F α → (α → Program C R F β) → Program C R F β
  | ret a, f => f a
  | fault e, _ => fault e
  | step c next, f => step c fun r => (next r).bind f

instance : Monad (Program C R F) where
  pure := ret
  bind := bind

def command (c : C) : Program C R F (R c) := step c ret

variable (handle : (c : C) → σ → R c × σ)

def run : Program C R F α → σ → Except F α × σ
  | ret a, s => (.ok a, s)
  | fault e, s => (.error e, s)
  | step c next, s => (next (handle c s).1).run (handle c s).2

/-- The commands of a run, each with the state in which it is given. -/
def visits : Program C R F α → σ → List (C × σ)
  | ret _, _ => []
  | fault _, _ => []
  | step c next, s => (c, s) :: (next (handle c s).1).visits (handle c s).2

variable {handle}

theorem run_bind_of_ok {p : Program C R F α} {f : α → Program C R F β} {s t : σ} {a : α}
    (h : p.run handle s = (.ok a, t)) : (p >>= f).run handle s = (f a).run handle t := by
  induction p generalizing s with
  | ret b =>
    cases h
    rfl
  | fault e => cases h
  | step c next ih => exact ih _ h

theorem run_bind_ret_snd (p : Program C R F α) (f : α → β) (s : σ) :
    ((p >>= fun a => ret (f a)).run handle s).2 = (p.run handle s).2 := by
  induction p generalizing s with
  | ret a => rfl
  | fault e => rfl
  | step c next ih => exact ih _ _

variable (handle)

inductive Returns (rely : C → σ → Prop) (post : α → σ → Prop) : Program C R F α → σ → Prop
  | ret {a : α} {s : σ} : post a s → Returns rely post (.ret a) s
  | step {c : C} {next : R c → Program C R F α} {s : σ} :
    (rely c s → Returns rely post (next (handle c s).1) (handle c s).2) →
      Returns rely post (.step c next) s

variable {handle} {rely : C → σ → Prop}

variable {p : Program C R F α} {s : σ}

theorem Returns.bind {f : α → Program C R F β} {mid : α → σ → Prop} {post : β → σ → Prop}
    (hp : Returns handle rely mid p s) (hf : ∀ a t, mid a t → Returns handle rely post (f a) t) :
    Returns handle rely post (p >>= f) s := by
  induction hp with
  | ret hmid => exact hf _ _ hmid
  | step _ ih => exact .step ih

theorem Returns.mono {mid post : α → σ → Prop} (hp : Returns handle rely mid p s)
    (h : ∀ a t, mid a t → post a t) : Returns handle rely post p s := by
  induction hp with
  | ret hmid => exact .ret (h _ _ hmid)
  | step _ ih => exact .step ih

theorem Returns.command {c : C} {f : R c → Program C R F β} {post : β → σ → Prop}
    (hf : rely c s → Returns handle rely post (f (handle c s).1) (handle c s).2) :
    Returns handle rely post (Program.command c >>= f) s := .step hf

theorem Returns.bind_run {f : α → Program C R F β} {t : σ} {a : α} (h : p.run handle s = (.ok a, t))
    {post : β → σ → Prop} (hf : Returns handle rely post (f a) t) :
    Returns handle rely post (p >>= f) s := by
  induction p generalizing s with
  | ret b =>
    cases h
    exact hf
  | fault e => cases h
  | step c next ih => exact .step fun _ => ih _ h

theorem Returns.of_run {t : σ} {a : α} (h : p.run handle s = (.ok a, t)) {post : α → σ → Prop}
    (hpost : post a t) : Returns handle rely post p s := by
  induction p generalizing s with
  | ret b =>
    cases h
    exact .ret hpost
  | fault e => cases h
  | step c next ih => exact .step fun _ => ih _ h

theorem Returns.sound {post : α → σ → Prop} (hp : Returns handle rely post p s)
    (hrely : ∀ v ∈ p.visits handle s, rely v.1 v.2) :
    ∃ a, (p.run handle s).1 = .ok a ∧ post a (p.run handle s).2 := by
  induction hp with
  | ret hpost => exact ⟨_, rfl, hpost⟩
  | step _ ih =>
    exact ih (hrely _ List.mem_cons_self) fun v hv => hrely v (List.mem_cons_of_mem _ hv)

end Program

/-- How commands act on a state, and what is required of them. -/
structure Discipline (C : Type) (R : C → Type) (σ : Type) where
  handle : (c : C) → σ → R c × σ
  rely : C → σ → Prop
  guar : C → σ → Prop
  le : σ → σ → Prop
  le_refl : ∀ s, le s s
  le_trans : ∀ {s t u}, le s t → le t u → le s u
  grows : ∀ c s, rely c s → guar c s → le s (handle c s).2

namespace Discipline

variable {C : Type} {R : C → Type} {F α β σ : Type} (d : Discipline C R σ)

/-- The program keeps to the guarantee as long as it can rely on its commands, and then returns
with the postcondition. -/
def Runs : Program C R F α → σ → (α → σ → Prop) → Prop
  | .ret a, s, post => post a s
  | .fault _, _, _ => True
  | .step c next, s, post =>
    d.rely c s → d.guar c s ∧ Runs (next (d.handle c s).1) (d.handle c s).2 post

variable {d}

theorem Runs.bind_le {p : Program C R F α} {f : α → Program C R F β} {s : σ}
    {mid : α → σ → Prop} {post : β → σ → Prop} (hp : d.Runs p s mid)
    (hf : ∀ a t, d.le s t → mid a t → d.Runs (f a) t post) : d.Runs (p >>= f) s post := by
  induction p generalizing s with
  | ret a => exact hf a s (d.le_refl s) hp
  | fault e => trivial
  | step c next ih =>
    intro hrely
    obtain ⟨hguar, hnext⟩ := hp hrely
    exact ⟨hguar, ih _ hnext fun a t hle => hf a t (d.le_trans (d.grows c s hrely hguar) hle)⟩

/-- If all commands of the run can be relied on, all of them are as guaranteed, the state has
grown, and the postcondition holds if the program returns. -/
theorem Runs.sound {p : Program C R F α} {s : σ} {post : α → σ → Prop} (hp : d.Runs p s post)
    (hrely : ∀ v ∈ p.visits d.handle s, d.rely v.1 v.2) :
    (∀ v ∈ p.visits d.handle s, d.guar v.1 v.2) ∧ d.le s (p.run d.handle s).2 ∧
      ∀ a, (p.run d.handle s).1 = .ok a → post a (p.run d.handle s).2 := by
  induction p generalizing s with
  | ret a =>
    refine ⟨nofun, d.le_refl s, fun b hb => ?_⟩
    cases hb
    exact hp
  | fault e => exact ⟨nofun, d.le_refl s, nofun⟩
  | step c next ih =>
    have hfirst := hrely (c, s) List.mem_cons_self
    obtain ⟨hguar, hnext⟩ := hp hfirst
    obtain ⟨hvisits, hle, hpost⟩ := ih _ hnext fun v hv => hrely v (List.mem_cons_of_mem _ hv)
    refine ⟨fun v hv => ?_, d.le_trans (d.grows c s hfirst hguar) hle, hpost⟩
    rcases List.mem_cons.1 hv with rfl | hv
    · exact hguar
    · exact hvisits v hv

/-- The state only grows up to a command of the run, and from there to its end. -/
theorem Runs.le_visit {p : Program C R F α} {s : σ} {post : α → σ → Prop} (hp : d.Runs p s post)
    (hrely : ∀ v ∈ p.visits d.handle s, d.rely v.1 v.2) {v : C × σ}
    (hv : v ∈ p.visits d.handle s) :
    d.le s v.2 ∧ d.le (d.handle v.1 v.2).2 (p.run d.handle s).2 := by
  induction p generalizing s with
  | ret a => cases hv
  | fault e => cases hv
  | step c next ih =>
    have hfirst := hrely (c, s) List.mem_cons_self
    obtain ⟨hguar, hnext⟩ := hp hfirst
    have hrest : ∀ v ∈ (next (d.handle c s).1).visits d.handle (d.handle c s).2,
        d.rely v.1 v.2 := fun v hv => hrely v (List.mem_cons_of_mem _ hv)
    rcases List.mem_cons.1 hv with rfl | hv
    · exact ⟨d.le_refl s, (hnext.sound hrest).2.1⟩
    · obtain ⟨hbefore, hafter⟩ := ih _ hnext hrest hv
      exact ⟨d.le_trans (d.grows c s hfirst hguar) hbefore, hafter⟩

theorem Runs.of_guar (h : ∀ c s, d.guar c s) (p : Program C R F α) (s : σ) :
    d.Runs p s fun _ _ => True := by
  induction p generalizing s with
  | ret a => trivial
  | fault e => trivial
  | step c next ih => exact fun _ => ⟨h c s, ih _ _⟩

end Discipline
