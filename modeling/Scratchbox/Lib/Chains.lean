import Mathlib.Computability.StateTransition
import Mathlib.Order.WellFounded

/-!
# Chains

A partial function `next : α → Option α` makes a chain from each value. It has a last member
(`StateTransition.eval`) or is endless. A recursion that follows the chain, here with fuel,
returns exactly if the chain is not endless, and its result belongs to the last member.
-/

namespace Chains

open StateTransition

variable {α β : Type*} (next : α → Option α)

/-- The chain from `a` never ends. -/
def Endless (a : α) : Prop :=
  ∃ chain : ℕ → α, chain 0 = a ∧ ∀ k, chain (k + 1) ∈ next (chain k)

/-- A recursion that follows the chain to its last member. -/
def follow (result : α → β) : ℕ → α → Option β
  | 0, _ => none
  | fuel + 1, a =>
    match next a with
    | none => some (result a)
    | some b => follow result fuel b

variable {next} {a b : α} {result : α → β}

/-! ## Last members -/

theorem endless_iff_not_acc : Endless next a ↔ ¬ Acc (fun b a => b ∈ next a) a := by
  rw [not_acc_iff_exists_descending_chain, Endless]

theorem invariant_of_mem_eval {motive : α → Prop}
    (step : ∀ a b, b ∈ next a → motive a → motive b) (last : b ∈ eval next a) (start : motive a) :
    motive b := by
  obtain ⟨reaches, -⟩ := mem_eval.1 last
  clear last
  induction reaches with
  | refl => exact start
  | tail _ found ih => exact step _ _ found ih

theorem mem_eval_cons {c : α} (step : next a = some b) (last : c ∈ eval next b) :
    c ∈ eval next a := by
  obtain ⟨reaches, stop⟩ := mem_eval.1 last
  exact mem_eval.2 ⟨.head step reaches, stop⟩

theorem dom_eval_iff : (eval next a).Dom ↔ ¬ Endless next a := by
  constructor
  · intro dom
    have isLast := Part.get_mem dom
    obtain ⟨reaches, stop⟩ := mem_eval.1 isLast
    -- An endless chain stays endless with each step, but the last member has no next one.
    have tail (a b : α) (step : b ∈ next a) : Endless next a → Endless next b := by
      rintro ⟨chain, rfl, steps⟩
      exact ⟨fun k => chain (k + 1), Option.mem_unique (steps 0) step, fun k => steps (k + 1)⟩
    intro endless
    obtain ⟨chain, start, steps⟩ := invariant_of_mem_eval tail isLast endless
    have first := steps 0
    rw [start, stop] at first
    cases first
  · rw [endless_iff_not_acc, not_not]
    intro ends
    induction ends with
    | intro a _ ih =>
      cases step : next a with
      | none => exact Part.dom_iff_mem.2 ⟨a, mem_eval.2 ⟨.refl, step⟩⟩
      | some b =>
        obtain ⟨c, isLast⟩ := Part.dom_iff_mem.1 (ih b step)
        exact Part.dom_iff_mem.2 ⟨c, mem_eval_cons step isLast⟩

/-! ## Recursion -/

theorem mem_eval_of_follow {fuel : ℕ} {r : β}
    (returned : follow next result fuel a = some r) : ∃ b ∈ eval next a, result b = r := by
  induction fuel generalizing a with
  | zero => cases returned
  | succ fuel ih =>
    unfold follow at returned
    split at returned
    next stop => exact ⟨a, mem_eval.2 ⟨.refl, stop⟩, Option.some.inj returned⟩
    next b step =>
      obtain ⟨c, isLast, same⟩ := ih returned
      exact ⟨c, mem_eval_cons step isLast, same⟩

theorem exists_follow_of_mem_eval (isLast : b ∈ eval next a) :
    ∃ fuel, follow next result fuel a = some (result b) := by
  obtain ⟨reaches, stop⟩ := mem_eval.1 isLast
  clear isLast
  induction reaches using Relation.ReflTransGen.head_induction_on with
  | refl => exact ⟨1, by rw [follow, stop]⟩
  | head step _ ih =>
    obtain ⟨fuel, returned⟩ := ih
    exact ⟨fuel + 1, by rw [follow, step]; exact returned⟩

theorem exists_follow_isSome_iff :
    (∃ fuel, (follow next result fuel a).isSome) ↔ (eval next a).Dom := by
  constructor
  · rintro ⟨fuel, returned⟩
    obtain ⟨r, returned⟩ := Option.isSome_iff_exists.1 returned
    obtain ⟨b, isLast, -⟩ := mem_eval_of_follow returned
    exact Part.dom_iff_mem.2 ⟨b, isLast⟩
  · intro dom
    obtain ⟨fuel, returned⟩ := exists_follow_of_mem_eval (Part.get_mem dom)
    exact ⟨fuel, Option.isSome_iff_exists.2 ⟨result _, returned⟩⟩

end Chains
