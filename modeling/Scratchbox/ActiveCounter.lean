import Mathlib.Algebra.BigOperators.Group.Finset.Piecewise
import Mathlib.Algebra.Order.BigOperators.Group.Finset
import Scratchbox.InodeMap

/-!
# The counter of active inodes

The clients do not look into the store while the counter of active inodes is `0`. The server counts
an inode when its record is added, whatever the record says. A mode is set with the real mode of a
file, which has a file type, and a virtual mode without one, so every record that the clients add is
active, and the counter is the number of active records (`counter_eq_active`).
-/

namespace Scratchbox

/-! ## Counting records -/

section Tally

variable {α : Type} (weight : Option α → Nat)

def tally (f : Nat → Option α) (n : Nat) : Nat := ∑ k ∈ Finset.range n, weight (f k)

variable {weight} {f : Nat → Option α} {n m : Nat}

theorem tally_mono {weight' : Option α → Nat} (hle : ∀ x, weight x ≤ weight' x)
    (f : Nat → Option α) (n : Nat) : tally weight f n ≤ tally weight' f n :=
  Finset.sum_le_sum fun k _ => hle (f k)

theorem tally_of_le (hnone : weight none = 0) (hf : ∀ k, n ≤ k → f k = none) (hle : n ≤ m) :
    tally weight f m = tally weight f n := by
  refine (Finset.sum_subset (Finset.range_mono hle) fun k _ hk => ?_).symm
  rw [hf k (not_lt.1 fun hlt => hk (Finset.mem_range.2 hlt)), hnone]

theorem tally_update (value : Nat) (x : Option α) (hvalue : value < n) :
    tally weight (Function.update f value x) n + weight (f value) =
      tally weight f n + weight x := by
  have hmem : value ∈ Finset.range n := Finset.mem_range.2 hvalue
  have hsum : tally weight (Function.update f value x) n =
      ∑ k ∈ Finset.range n, Function.update (fun k => weight (f k)) value (weight x) k := by
    refine Finset.sum_congr rfl fun k _ => ?_
    rw [Function.update_apply, Function.update_apply]
    split <;> rfl
  rw [hsum, Finset.sum_update_of_mem hmem, Finset.sdiff_singleton_eq_erase, tally,
    ← Finset.add_sum_erase _ _ hmem]
  omega

end Tally

def RuletreeFile.storedInodestats (file : RuletreeFile) : Nat :=
  tally (fun record => if record.isSome then 1 else 0) file.inodestatAt file.fileSize

def isActive (record : Option InodeSimu) : Bool := record.any fun istat => istat.activeFields != 0

variable {istat : InodeSimu}

theorem isActive_some_iff : isActive (some istat) = true ↔ istat.activeFields ≠ 0 := by
  rw [isActive, Option.any_some, bne_iff_ne]

theorem isActive_of_eq_zero (h : istat.activeFields = 0) : isActive (some istat) = false := by
  rw [← Bool.not_eq_true, isActive_some_iff]
  exact not_not.2 h

def RuletreeFile.activeInodestats (file : RuletreeFile) : Nat :=
  tally (fun record => if isActive record then 1 else 0) file.inodestatAt file.fileSize

theorem RuletreeFile.activeInodestats_le (file : RuletreeFile) :
    file.activeInodestats ≤ file.storedInodestats := by
  refine tally_mono (fun record => ?_) _ _
  cases record with
  | none => exact le_rfl
  | some istat =>
    show (if isActive (some istat) then 1 else 0) ≤ 1
    split <;> decide

def FileinfoCommand.AddsInactive (command : FileinfoCommand) (old : Option InodeSimu) : Prop :=
  old = none ∧ ∃ new, command.apply none = some new ∧ new.activeFields = 0

theorem FileinfoCommand.counted_cases (command : FileinfoCommand) (old : Option InodeSimu)
    (n : Nat) :
    (command.AddsInactive old ∧ command.counted old n = incCount n ∧
      isActive old = false ∧ isActive (command.apply old) = false) ∨
    ¬ command.AddsInactive old ∧
      ((command.counted old n = n ∧ isActive (command.apply old) = isActive old) ∨
        (command.counted old n = incCount n ∧
          isActive old = false ∧ isActive (command.apply old) = true) ∨
        (command.counted old n = n - 1 ∧
          isActive old = true ∧ isActive (command.apply old) = false)) := by
  rw [FileinfoCommand.counted.eq_def]
  cases old with
  | none =>
    cases hnew : command.apply none with
    | none =>
      refine .inr ⟨?_, .inl ⟨rfl, rfl⟩⟩
      rintro ⟨-, new, hsome, -⟩
      rw [hnew] at hsome
      cases hsome
    | some new =>
      by_cases hactive : new.activeFields = 0
      · exact .inl ⟨⟨rfl, new, hnew, hactive⟩, rfl, rfl, isActive_of_eq_zero hactive⟩
      · refine .inr ⟨?_, .inr (.inl ⟨rfl, rfl, isActive_some_iff.2 hactive⟩)⟩
        rintro ⟨-, new', hsome, hzero⟩
        rw [hnew] at hsome
        cases hsome
        exact hactive hzero
  | some istat =>
    right
    refine ⟨fun h => absurd h.1 (Option.some_ne_none istat), ?_⟩
    cases hnew : command.apply (some istat) with
    | none => cases command <;> cases hnew
    | some new =>
      by_cases hold : istat.activeFields = 0
      · have hfalse := isActive_of_eq_zero hold
        by_cases hactive : new.activeFields = 0
        · exact .inl ⟨by simp [hold, hactive], by rw [hfalse, isActive_of_eq_zero hactive]⟩
        · exact .inr (.inl ⟨if_pos ⟨hold, hactive⟩, hfalse, isActive_some_iff.2 hactive⟩)
      · have htrue := isActive_some_iff.2 hold
        by_cases hactive : new.activeFields = 0
        · refine .inr (.inr ⟨?_, htrue, isActive_of_eq_zero hactive⟩)
          exact (if_neg fun h => hold h.1).trans (if_pos ⟨hold, hactive⟩)
        · refine .inl ⟨?_, by rw [htrue, isActive_some_iff.2 hactive]⟩
          exact (if_neg fun h => hold h.1).trans (if_neg fun h => hactive h.2)

namespace RuletreeServer

variable {server after : RuletreeServer} {command : FileinfoCommand}

section

variable (h : server.Handled after command)

include h

theorem Handled.tally (weight : Option InodeSimu → Nat)
    (hnone : weight none = 0) :
    tally weight after.tree.file.inodestatAt after.tree.file.fileSize +
        weight (server.lookUp command.inode) =
      tally weight server.tree.file.inodestatAt server.tree.file.fileSize +
        weight (command.apply (server.lookUp command.inode)) := by
  obtain ⟨value, hvalue, hafter⟩ := h.record
  have hbehind (file : RuletreeFile) (offs : Nat) (hoffs : file.fileSize ≤ offs) :
      file.inodestatAt offs = none := by
    rw [RuletreeFile.inodestatAt, file.objects_none offs hoffs, Option.bind_none]
  rw [← tally_of_le hnone (hbehind server.tree.file) h.fileSize]
  rcases Nat.lt_or_ge value after.tree.file.fileSize with hlt | hge
  · rw [hafter, ← hvalue]
    exact tally_update value _ hlt
  · -- Behind the end there was no record, and there is none now.
    have hold := hbehind server.tree.file value (h.fileSize.trans hge)
    have hnew := hbehind after.tree.file value hge
    rw [hafter, Function.update_self] at hnew
    rw [hafter, hnew, ← hvalue, hold, ← hold, Function.update_eq_self]

theorem Handled.stored :
    after.tree.file.storedInodestats +
        (if (server.lookUp command.inode).isSome then 1 else 0) =
      server.tree.file.storedInodestats +
        (if (command.apply (server.lookUp command.inode)).isSome then 1 else 0) :=
  h.tally _ rfl

theorem Handled.active :
    after.tree.file.activeInodestats +
        (if isActive (server.lookUp command.inode) then 1 else 0) =
      server.tree.file.activeInodestats +
        (if isActive (command.apply (server.lookUp command.inode)) then 1 else 0) :=
  h.tally _ rfl

/-- What a command does to the counter and to the number of active records. They part when a
record is added in which nothing is active, or when the counter is at its limit. -/
theorem Handled.counter_cases :
    (command.AddsInactive (server.lookUp command.inode) ∧
      after.tree.numActiveInodestats = incCount server.tree.numActiveInodestats ∧
      after.tree.file.activeInodestats = server.tree.file.activeInodestats) ∨
    ¬ command.AddsInactive (server.lookUp command.inode) ∧
      ((after.tree.numActiveInodestats = server.tree.numActiveInodestats ∧
          after.tree.file.activeInodestats = server.tree.file.activeInodestats) ∨
        (after.tree.numActiveInodestats = incCount server.tree.numActiveInodestats ∧
          after.tree.file.activeInodestats = server.tree.file.activeInodestats + 1) ∨
        (after.tree.numActiveInodestats = server.tree.numActiveInodestats - 1 ∧
          after.tree.file.activeInodestats + 1 = server.tree.file.activeInodestats)) := by
  have hactive := h.active
  have hcount := h.counter
  rcases command.counted_cases (server.lookUp command.inode) server.tree.numActiveInodestats with
    ⟨hadds, hcounted, hold, hnew⟩ |
      ⟨hadds, ⟨hcounted, hsame⟩ | ⟨hcounted, hold, hnew⟩ | ⟨hcounted, hold, hnew⟩⟩
  · rw [hold, hnew] at hactive
    exact .inl ⟨hadds, hcount.trans hcounted, hactive⟩
  · rw [hsame] at hactive
    exact .inr ⟨hadds, .inl ⟨hcount.trans hcounted, Nat.add_right_cancel hactive⟩⟩
  · rw [hold, hnew] at hactive
    exact .inr ⟨hadds, .inr (.inl ⟨hcount.trans hcounted, hactive⟩)⟩
  · rw [hold, hnew] at hactive
    exact .inr ⟨hadds, .inr (.inr ⟨hcount.trans hcounted, hactive⟩)⟩

theorem Handled.active_le (hstored : after.tree.file.storedInodestats < 2 ^ 32)
    (hle : server.tree.file.activeInodestats ≤ server.tree.numActiveInodestats) :
    after.tree.file.activeInodestats ≤ after.tree.numActiveInodestats := by
  have hbound := after.tree.file.activeInodestats_le
  have hinc : ∀ n, n + 1 ≤ incCount n ∨ 2 ^ 32 - 1 ≤ incCount n := by
    intro n
    rw [incCount]
    split
    · exact .inl le_rfl
    next hge => exact .inr (not_lt.1 hge)
  have := hinc server.tree.numActiveInodestats
  rcases h.counter_cases with
    ⟨-, hcount, hactive⟩ | ⟨-, ⟨hcount, hactive⟩ | ⟨hcount, hactive⟩ | ⟨hcount, hactive⟩⟩ <;>
    omega

/-- A command keeps the counter right, unless it adds a record in which nothing is active. -/
theorem Handled.counter_eq (hadds : ¬ command.AddsInactive (server.lookUp command.inode))
    (hstored : after.tree.file.storedInodestats < 2 ^ 32)
    (heq : server.tree.numActiveInodestats = server.tree.file.activeInodestats) :
    after.tree.numActiveInodestats = after.tree.file.activeInodestats := by
  have hbound := after.tree.file.activeInodestats_le
  rcases h.counter_cases with ⟨hinactive, -⟩ |
    ⟨-, ⟨hcount, hactive⟩ | ⟨hcount, hactive⟩ | ⟨hcount, hactive⟩⟩
  · exact absurd hinactive hadds
  · rw [hcount, hactive, heq]
  · have hlt : server.tree.numActiveInodestats < 2 ^ 32 - 1 := by omega
    rw [hcount, hactive, heq, incCount, if_pos (heq ▸ hlt)]
  · omega

end

theorem run_append (server : RuletreeServer) (commands commands' : List FileinfoCommand) :
    server.run (commands ++ commands') = (server.run commands).run commands' := by
  induction commands generalizing server with
  | nil => rfl
  | cons command commands ih => exact ih (server.handle command).1

theorem Handled.stored_le (h : server.Handled after command) :
    server.tree.file.storedInodestats ≤ after.tree.file.storedInodestats := by
  have hstored := h.stored
  cases hold : server.lookUp command.inode with
  | none =>
    rw [hold] at hstored
    exact le_of_le_of_eq (Nat.le_add_right _ _) hstored.symm
  | some istat =>
    have hnew : (command.apply (some istat)).isSome := by cases command <;> rfl
    rw [hold, hnew] at hstored
    exact (Nat.add_right_cancel hstored).ge

theorem Sound.stored_le_run {t : SearchTree.Tree (ℕ ×ₗ ℕ) Nat} (h : server.Sound t)
    (commands : List FileinfoCommand) :
    server.tree.file.storedInodestats ≤ (server.run commands).tree.file.storedInodestats := by
  induction commands generalizing server t with
  | nil => exact le_rfl
  | cons command commands ih =>
    obtain ⟨u, hu⟩ := (h.handle command).sound
    exact (h.handle command).stored_le.trans (ih hu)

end RuletreeServer

/-! ## What the clients send -/

/-- The functions of the clients, as they are called: ids are set with at least one of them
selected, and `vperm_chmod` passes the real mode of a file, in which the type is never `0`. -/
inductive VpermCall
  | clear (inode : Inode)
  | setIds (inode : Inode) (setUid : Bool) (uid : BitVec 32) (setGid : Bool) (gid : BitVec 32)
      (selected : (setUid || setGid) = true)
  | releaseIds (inode : Inode) (releaseUid releaseGid : Bool)
  | setMode (inode : Inode) (realMode virtMode suidSgidBits : BitVec 32)
      (typed : realMode &&& sIfmt ≠ 0)
  | releaseMode (inode : Inode)
  | setDevNode (inode : Inode) (mode : BitVec 32) (rdev : BitVec 64)

namespace VpermCall

def command : VpermCall → FileinfoCommand
  | clear inode => ruletreeRpcVpermClear inode.1 inode.2
  | setIds inode setUid uid setGid gid _ =>
    ruletreeRpcVpermSetIds inode.1 inode.2 setUid uid setGid gid
  | releaseIds inode releaseUid releaseGid =>
    ruletreeRpcVpermReleaseIds inode.1 inode.2 releaseUid releaseGid
  | setMode inode realMode virtMode suidSgidBits _ =>
    -- the words that `vperm_chmod` takes out of the mode before it calls the function
    ruletreeRpcVpermSetMode inode.1 inode.2 realMode
      (virtMode &&& ~~~(sIfmt ||| sIsuid ||| sIsgid)) (suidSgidBits &&& (sIsuid ||| sIsgid))
  | releaseMode inode => ruletreeRpcVpermReleaseMode inode.1 inode.2
  | setDevNode inode mode rdev => ruletreeRpcVpermSetDevNode inode.1 inode.2 mode rdev

theorem not_addsInactive_of_active {fileinfo : InodeSimu} {old : Option InodeSimu}
    (h : fileinfo.activeFields ≠ 0) :
    ¬ (FileinfoCommand.setfileinfo fileinfo).AddsInactive old := by
  rintro ⟨-, new, hnew, hzero⟩
  cases hnew
  exact h hzero

theorem not_addsInactive_of_none {command : FileinfoCommand} {old : Option InodeSimu}
    (h : command.apply none = none) : ¬ command.AddsInactive old := by
  rintro ⟨-, new, hnew, -⟩
  rw [h] at hnew
  cases hnew

/-- The type of the file stands in the real mode only. -/
theorem realMode_ne {realMode virtMode : BitVec 32} (typed : realMode &&& sIfmt ≠ 0) :
    realMode &&& ~~~(sIsuid ||| sIsgid) ≠
      virtMode &&& ~~~(sIfmt ||| sIsuid ||| sIsgid) &&& ~~~(sIsuid ||| sIsgid) := by
  intro heq
  refine typed ?_
  have hmask : ~~~(sIsuid ||| sIsgid) &&& sIfmt = sIfmt := by decide
  have hout : ~~~(sIfmt ||| sIsuid ||| sIsgid) &&& ~~~(sIsuid ||| sIsgid) &&& sIfmt = 0 := by decide
  calc realMode &&& sIfmt = realMode &&& ~~~(sIsuid ||| sIsgid) &&& sIfmt := by
        rw [BitVec.and_assoc, hmask]
    _ = virtMode &&& (~~~(sIfmt ||| sIsuid ||| sIsgid) &&& ~~~(sIsuid ||| sIsgid) &&& sIfmt) := by
        rw [heq]
        simp only [BitVec.and_assoc]
    _ = 0 := by rw [hout]; exact BitVec.and_zero

theorem not_addsInactive (call : VpermCall) (old : Option InodeSimu) :
    ¬ call.command.AddsInactive old := by
  cases call with
  | clear inode => exact not_addsInactive_of_none rfl
  | releaseIds inode releaseUid releaseGid => exact not_addsInactive_of_none rfl
  | releaseMode inode => exact not_addsInactive_of_none rfl
  | setIds inode setUid uid setGid gid selected =>
    refine not_addsInactive_of_active fun hzero => ?_
    obtain ⟨huid, hgid⟩ := BitVec.or_eq_zero_iff.1 hzero
    cases setUid with
    | true => exact absurd huid (by decide)
    | false =>
      rw [Bool.false_or] at selected
      rw [selected] at hgid
      exact absurd hgid (by decide)
  | setMode inode realMode virtMode suidSgidBits typed =>
    refine not_addsInactive_of_active fun hzero => ?_
    have hmode := (BitVec.or_eq_zero_iff.1 hzero).1
    rw [if_pos (realMode_ne typed)] at hmode
    exact absurd hmode (by decide)
  | setDevNode inode mode rdev =>
    exact not_addsInactive_of_active (show simMode ||| simDevnode ≠ 0 by decide)

end VpermCall

def serverAfter (file : RuletreeFile) (calls : List VpermCall) : RuletreeServer :=
  (RuletreeServer.empty file).run (calls.map VpermCall.command)

section Runs

variable {file : RuletreeFile} {calls : List VpermCall} {call : VpermCall}

theorem serverAfter_sound (file : RuletreeFile) (calls : List VpermCall) :
    ∃ t, (serverAfter file calls).Sound t :=
  ((RuletreeServer.empty_sound file).run _).1

theorem serverAfter_concat (file : RuletreeFile) (calls : List VpermCall) (call : VpermCall) :
    (serverAfter file calls).Handled (serverAfter file (calls ++ [call])) call.command := by
  obtain ⟨t, ht⟩ := serverAfter_sound file calls
  rw [serverAfter, serverAfter, List.map_append, RuletreeServer.run_append]
  exact ht.handle call.command

theorem stored_le_of_isPrefix {done : List VpermCall} (h : done <+: calls) :
    (serverAfter file done).tree.file.storedInodestats ≤
      (serverAfter file calls).tree.file.storedInodestats := by
  obtain ⟨rest, rfl⟩ := h
  obtain ⟨t, ht⟩ := serverAfter_sound file done
  rw [serverAfter, serverAfter, List.map_append, RuletreeServer.run_append]
  exact ht.stored_le_run _

theorem activeInodestats_eq_zero_iff :
    file.activeInodestats = 0 ↔ ∀ offs, isActive (file.inodestatAt offs) = false := by
  rw [RuletreeFile.activeInodestats, tally, Finset.sum_eq_zero_iff]
  constructor
  · intro h offs
    rcases Nat.lt_or_ge offs file.fileSize with hlt | hge
    · exact Bool.eq_false_iff.2 fun hactive =>
        absurd (h offs (Finset.mem_range.2 hlt)) (by rw [hactive]; decide)
    · rw [RuletreeFile.inodestatAt, file.objects_none offs hge]
      rfl
  · intro h offs _
    rw [h offs]
    rfl

theorem RuletreeServer.Sound.isActive_lookUp {server : RuletreeServer}
    {t : SearchTree.Tree (ℕ ×ₗ ℕ) Nat} (h : server.Sound t)
    (hzero : server.tree.file.activeInodestats = 0) (inode : Inode) :
    isActive (server.lookUp inode) = false := by
  obtain ⟨value, hvalue⟩ := h.holds.exists_inodestatAt h.root inode
  rw [RuletreeServer.lookUp, ← hvalue]
  exact activeInodestats_eq_zero_iff.1 hzero value

theorem counter_eq_of_empty (hempty : ∀ offs, file.inodestatAt offs = none)
    (hstored : (serverAfter file calls).tree.file.storedInodestats < 2 ^ 32) :
    (serverAfter file calls).tree.numActiveInodestats =
      (serverAfter file calls).tree.file.activeInodestats := by
  induction calls using List.reverseRecOn with
  | nil => exact (activeInodestats_eq_zero_iff.2 fun offs => congrArg isActive (hempty offs)).symm
  | append_singleton calls call ih =>
    have hle : _ ≤ (serverAfter file (calls ++ [call])).tree.file.storedInodestats :=
      stored_le_of_isPrefix (List.prefix_append calls [call])
    exact (serverAfter_concat file calls call).counter_eq (call.not_addsInactive _) hstored
      (ih (hle.trans_lt hstored))

end Runs

/-- After every call the counter is the number of active records, so a counter of `0` hides
no active record. -/
theorem counter_eq_active (file : RuletreeFile) (hempty : ∀ offs, file.inodestatAt offs = none)
    (calls : List VpermCall)
    (hstored : (serverAfter file calls).tree.file.storedInodestats < 2 ^ 32) :
    ∀ done, done <+: calls →
      (serverAfter file done).tree.numActiveInodestats =
        (serverAfter file done).tree.file.activeInodestats ∧
      ((serverAfter file done).tree.numActiveInodestats = 0 →
        ∀ inode, isActive ((serverAfter file done).lookUp inode) = false) := by
  intro done hdone
  have hcount := counter_eq_of_empty hempty ((stored_le_of_isPrefix hdone).trans_lt hstored)
  refine ⟨hcount, fun hzero inode => ?_⟩
  obtain ⟨t, ht⟩ := serverAfter_sound file done
  exact ht.isActive_lookUp (hcount.symm.trans hzero) inode

theorem create_inodestatAt (offs : Nat) : RuletreeFile.create.inodestatAt offs = none := by
  show (if offs = 0 then some RuletreeObject.filehdr else none).bind _ = none
  split <;> rfl

/-- The owner of one file and the mode of another one are set, and the owner is released. -/
theorem counter_follows_calls :
    let server := serverAfter .create
      [.setIds (1, 1) true 0 false 0 rfl, .setMode (1, 2) 0o100644 0o600 0 (by decide),
        .releaseIds (1, 1) true true]
    server.tree.numActiveInodestats = 1 ∧
      server.tree.numActiveInodestats = server.tree.file.activeInodestats :=
  ⟨by decide +kernel, (counter_eq_active .create create_inodestatAt _ (by decide +kernel) _
    List.prefix_rfl).1⟩

end Scratchbox
