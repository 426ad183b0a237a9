import Scratchbox.Lib.Bytes
import Scratchbox.Lib.Programs

/-!
# Programs that read a memory

A memory has a byte at some addresses, and nothing at the others. A program reads bytes; the
addresses may depend on what it has read before.

`Stays` says that a program reads from allowed addresses only. Its rules are equivalences, so that
the condition that they give for a program is exact: `stays_bind`, `stays_readBytes`,
`stays_readString`. `OnlyFault` says that a program stops in one way only.
-/

namespace Reads

open Bytes

abbrev Reader (F α : Type) := Program Nat (fun _ => Option Byte) F α

variable {F α β : Type} (mem : Nat → Option Byte)

/-- A memory answers every command and does not change. -/
def answer (address : Nat) (s : Unit) : Option Byte × Unit := (mem address, s)

/-- The result of a program. -/
def outcome (p : Reader F α) : Except F α := (p.run (answer mem) ()).1

def addresses (p : Reader F α) : List Nat := (p.visits (answer mem) ()).map Prod.fst

def Stays (allowed : Nat → Prop) (p : Reader F α) : Prop := ∀ a ∈ addresses mem p, allowed a

/-- What is done with the answer of the memory: if there is no byte, the program stops. -/
def ofAnswer (missing : F) : Option Byte → Reader F Byte
  | some b => .ret b
  | none => .fault missing

def readByte (missing : F) (a : Nat) : Reader F Byte := .step a (ofAnswer missing)

def readBytes (missing : F) : (address : Nat → Nat) → (n : Nat) → Reader F (List Byte)
  | _, 0 => .ret []
  | address, n + 1 => do
    let b ← readByte missing (address 0)
    let bs ← readBytes missing (fun i => address (i + 1)) n
    return b :: bs

def readString (missing : F) : (address : Nat → Nat) → (fuel : Nat) → Reader F (List Byte)
  | _, 0 => .fault missing
  | address, fuel + 1 => do
    let b ← readByte missing (address 0)
    if b = 0 then return []
    else
      let bs ← readString missing (fun i => address (i + 1)) fuel
      return b :: bs

/-! ## Results -/

variable {mem} {f : α → Reader F β} {p : Reader F α} {a : Nat} {e : F}

theorem outcome_bind (p : Reader F α) (f : α → Reader F β) :
    outcome mem (p >>= f) = outcome mem p >>= fun a => outcome mem (f a) := by
  induction p with
  | ret a => rfl
  | fault e => rfl
  | step a next ih => exact ih (mem a)

theorem outcome_bind_of_ok {a : α} (h : outcome mem p = .ok a)
    (f : α → Reader F β) : outcome mem (p >>= f) = outcome mem (f a) := by
  rw [outcome_bind, h]
  rfl

theorem outcome_readByte (missing : F) {b : Byte} (h : mem a = some b) :
    outcome mem (readByte missing a) = .ok b := by
  show outcome mem (ofAnswer missing (mem a)) = _
  rw [h]
  rfl

theorem outcome_readBytes (missing : F) {bytes : Nat → Byte} {address : Nat → Nat} {n : Nat}
    (h : ∀ i < n, mem (address i) = some (bytes i)) :
    outcome mem (readBytes missing address n) = .ok ((List.range n).map bytes) := by
  induction n generalizing address bytes with
  | zero => rfl
  | succ n ih =>
    have hrest : outcome mem (readBytes missing (fun i => address (i + 1)) n) =
        .ok ((List.range n).map fun i => bytes (i + 1)) :=
      ih fun i hi => h (i + 1) (Nat.succ_lt_succ hi)
    rw [readBytes, outcome_bind_of_ok (outcome_readByte missing (h 0 (Nat.succ_pos n))),
      outcome_bind_of_ok hrest, List.range_succ_eq_map, List.map_cons, List.map_map]
    rfl

/-! ## Faults -/

/-- A program that can only stop in one way. -/
def OnlyFault (e : F) (p : Reader F α) : Prop := ∀ mem e', outcome mem p = .error e' → e' = e

theorem onlyFault_pure (a : α) : OnlyFault e (pure a : Reader F α) := by
  intro mem e' h
  cases h

theorem OnlyFault.bind (hp : OnlyFault e p)
    (hf : ∀ a, OnlyFault e (f a)) : OnlyFault e (p >>= f) := by
  intro mem e' h
  rw [outcome_bind] at h
  cases hout : outcome mem p with
  | error x =>
    rw [hout] at h
    cases h
    exact hp mem _ hout
  | ok a =>
    rw [hout] at h
    exact hf a mem e' h

theorem onlyFault_readByte (e : F) (a : Nat) : OnlyFault e (readByte e a) := by
  intro mem e' h
  change outcome mem (ofAnswer e (mem a)) = _ at h
  cases hbyte : mem a with
  | none =>
    rw [hbyte] at h
    cases h
    rfl
  | some b =>
    rw [hbyte] at h
    cases h

theorem onlyFault_readBytes (e : F) (address : Nat → Nat) (n : Nat) :
    OnlyFault e (readBytes e address n) := by
  induction n generalizing address with
  | zero => exact onlyFault_pure []
  | succ n ih => exact (onlyFault_readByte e _).bind fun _ => (ih _).bind fun _ => onlyFault_pure _

theorem onlyFault_readString (e : F) (address : Nat → Nat) (fuel : Nat) :
    OnlyFault e (readString e address fuel) := by
  induction fuel generalizing address with
  | zero =>
    intro mem e' h
    cases h
    rfl
  | succ fuel ih =>
    refine (onlyFault_readByte e _).bind fun b => ?_
    split
    · exact onlyFault_pure []
    · exact (ih _).bind fun _ => onlyFault_pure _

/-! ## Allowed addresses -/

variable {allowed : Nat → Prop}

@[simp] theorem stays_ret (a : α) : Stays mem allowed (.ret a : Reader F α) := by
  intro _ h
  cases h

@[simp] theorem stays_pure (a : α) : Stays mem allowed (pure a : Reader F α) := stays_ret a

@[simp] theorem stays_fault (e : F) : Stays mem allowed (.fault e : Reader F α) := by
  intro _ h
  cases h

theorem stays_step {next : Option Byte → Reader F α} :
    Stays mem allowed (.step a next) ↔ allowed a ∧ Stays mem allowed (next (mem a)) := by
  show (∀ a' ∈ a :: addresses mem (next (mem a)), allowed a') ↔ _
  rw [List.forall_mem_cons]
  rfl

/-- The second program starts with the result of the first one, if there is one. -/
theorem stays_bind :
    Stays mem allowed (p >>= f) ↔
      Stays mem allowed p ∧ ∀ a, outcome mem p = .ok a → Stays mem allowed (f a) := by
  induction p with
  | ret a =>
    refine ⟨fun h => ⟨stays_ret a, fun b hb => ?_⟩, fun h => h.2 a rfl⟩
    cases hb
    exact h
  | fault e =>
    refine ⟨fun _ => ⟨stays_fault e, fun b hb => ?_⟩, fun _ => stays_fault e⟩
    cases hb
  | step a next ih =>
    show Stays mem allowed (.step a fun r => next r >>= f) ↔ _
    rw [stays_step, stays_step, ih (mem a), and_assoc]
    rfl

theorem stays_readByte {missing : F} : Stays mem allowed (readByte missing a) ↔ allowed a := by
  rw [readByte, stays_step]
  refine and_iff_left_of_imp fun _ => ?_
  cases mem a with
  | none => exact stays_fault missing
  | some b => exact stays_ret b

/-- A sequence whose first part has a known result, if it reads from allowed addresses. -/
theorem stays_bind_of_ok {a : α} {reads : Prop} (hp : Stays mem allowed p ↔ reads)
    (h : reads → outcome mem p = .ok a) :
    Stays mem allowed (p >>= f) ↔ reads ∧ (Stays mem allowed (f a)) := by
  rw [stays_bind, hp]
  refine and_congr_right fun hreads => ?_
  rw [h hreads]
  refine ⟨fun hnext => hnext a rfl, fun hnext b hb => ?_⟩
  cases hb
  exact hnext

section Known

variable {bytes : Nat → Byte} (known : ∀ a, allowed a → mem a = some (bytes a))
  {address : Nat → Nat} {missing : F} {n : Nat}

include known

theorem stays_readByte_bind {a : Nat} {f : Byte → Reader F β} :
    Stays mem allowed (readByte missing a >>= f) ↔
      allowed a ∧ Stays mem allowed (f (bytes a)) :=
  stays_bind_of_ok stays_readByte fun ha => outcome_readByte missing (known a ha)

theorem stays_readBytes :
    Stays mem allowed (readBytes missing address n) ↔ ∀ i < n, allowed (address i) := by
  induction n generalizing address with
  | zero => exact iff_of_true (stays_ret _) fun i hi => absurd hi (Nat.not_lt_zero i)
  | succ n ih =>
    rw [readBytes, stays_readByte_bind known, stays_bind, ih, Nat.forall_lt_succ_left]
    exact ⟨fun h => ⟨h.1, h.2.1⟩, fun h => ⟨h.1, h.2, fun bs _ => stays_pure _⟩⟩

theorem stays_readBytes_bind {f : List Byte → Reader F β} :
    Stays mem allowed (readBytes missing address n >>= f) ↔
      (∀ i < n, allowed (address i)) ∧
        Stays mem allowed (f ((List.range n).map fun i => bytes (address i))) :=
  stays_bind_of_ok (stays_readBytes known) fun h =>
    outcome_readBytes missing fun i hi => known _ (h i hi)

/-- A string ends at a byte that is zero, or there is none among the addresses. -/
theorem stays_readString {fuel : Nat} :
    Stays mem allowed (readString missing address fuel) ↔
      (∃ n < fuel, (∀ i ≤ n, allowed (address i)) ∧ bytes (address n) = 0) ∨
        ∀ i < fuel, allowed (address i) := by
  induction fuel generalizing address with
  | zero => exact iff_of_true (stays_fault _) (.inr fun i hi => absurd hi (Nat.not_lt_zero i))
  | succ fuel ih =>
    rw [readString, stays_readByte_bind known]
    by_cases hzero : bytes (address 0) = 0
    · rw [if_pos hzero]
      constructor
      · rintro ⟨hfirst, -⟩
        refine .inl ⟨0, Nat.succ_pos fuel, fun i hi => ?_, hzero⟩
        rw [Nat.le_zero.1 hi]
        exact hfirst
      · rintro (⟨n, -, hall, -⟩ | hall)
        · exact ⟨hall 0 (Nat.zero_le n), stays_pure _⟩
        · exact ⟨hall 0 (Nat.succ_pos fuel), stays_pure _⟩
    · have hrest : Stays mem allowed (do
          let bs ← readString missing (fun i => address (i + 1)) fuel
          return bytes (address 0) :: bs) ↔
          Stays mem allowed (readString missing (fun i => address (i + 1)) fuel) := by
        rw [stays_bind]
        exact and_iff_left fun bs _ => stays_pure _
      rw [if_neg hzero, hrest, ih, Nat.forall_lt_succ_left]
      constructor
      · rintro ⟨hfirst, ⟨n, hn, hall, hend⟩ | hall⟩
        · refine .inl ⟨n + 1, Nat.succ_lt_succ hn, fun i hi => ?_, hend⟩
          cases i with
          | zero => exact hfirst
          | succ i => exact hall i (Nat.le_of_succ_le_succ hi)
        · exact .inr ⟨hfirst, hall⟩
      · rintro (⟨n, hn, hall, hend⟩ | ⟨hfirst, hall⟩)
        · cases n with
          | zero => exact absurd hend hzero
          | succ n =>
            exact ⟨hall 0 (Nat.zero_le _), .inl ⟨n, Nat.lt_of_succ_lt_succ hn,
              fun i hi => hall (i + 1) (Nat.succ_le_succ hi), hend⟩⟩
        · exact ⟨hfirst, .inr hall⟩

end Known

end Reads
