import Scratchbox.InodeStore
import Scratchbox.SimulatedIds

/-!
# Simulated ids across `exec`

A process hands its simulated ids over to the program that it executes, as the text of
`SBOX_VPERM_IDS` (`vperm_export_ids_as_string_for_exec`), from which the library of the new
process fills its variables. Nothing is lost on the way, and the set-id bits of the
executable have the effect that they have in Linux (`ids_survive_exec`).
-/

namespace Scratchbox

open List

/-! ## Writing -/

/-- The conversion `%d`, for an id that is converted to `int`. -/
def printInt (id : BitVec 32) : CStr :=
  if id.toInt < 0 then '-' :: Nat.toDigits 10 id.toInt.natAbs
  else Nat.toDigits 10 id.toInt.natAbs

/-- `u%d:%d:%d:%d`, for one of the letters `u` and `g`. -/
def printIdGroup (letter : Char) (ids : IdGroup) : CStr :=
  letter :: printInt ids.real ++ ':' :: printInt ids.eff ++ ':' :: printInt ids.saved ++
    ':' :: printInt ids.fs

def IdGroup.forExec (ids : IdGroup) (setId : Bool) (owner : BitVec 32) : IdGroup :=
  let eff := if setId then owner else ids.eff
  { ids with eff := eff, saved := eff }

/-- `vperm_export_ids_as_string_for_exec`. The text that it makes of the old one, when the
variables are not filled yet, is not used. -/
def vpermExportIdsAsStringForExec (source : IdSource) (ids : SimulatedIds) (varname : CStr)
    (mode suid sgid : BitVec 32) (userVpermRequest : Option CStr) : SimulatedIds × CStr :=
  let ids := initializeSimulatedIds source ids
  let packed :=
    let ufbuf :=
      if ids.setOwnerAndGroupOfUnknownFiles then
        ',' :: 'f' :: printInt ids.unknownFileOwner ++ '.' :: printInt ids.unknownFileGroup
      else []
    varname ++ printIdGroup 'u' (ids.uids.forExec (mode &&& sIsuid != 0) suid) ++
      ',' :: printIdGroup 'g' (ids.gids.forExec (mode &&& sIsgid != 0) sgid) ++ ufbuf ++
      if ids.simulateRootFsPermissions then [] else [',', 'p']
  (ids,
    match userVpermRequest with
    | some request =>
      if mode = 0 then
        varname ++ match strchr request '=' with
          | some text => text.tail
          | none => request
      else packed
    | none => packed)

/-! ## Reading back -/

variable {c : Char} {rest : CStr} (n : Nat)

theorem mem_printInt {id : BitVec 32} (member : c ∈ printInt id) : c = '-' ∨ c.isDigit = true := by
  have digit {n : Nat} (member : c ∈ Nat.toDigits 10 n) : c.isDigit = true :=
    Nat.isDigit_of_mem_toDigits (by decide) (by decide) member
  unfold printInt at member
  split at member
  · rcases mem_cons.1 member with rfl | member
    · exact .inl rfl
    · exact .inr (digit member)
  · exact .inr (digit member)

theorem isSpace_of_isDigit (isDigit : c.isDigit = true) : isSpace c = false := by
  have digit : 48 ≤ c.toNat := (Char.isDigit_iff_toNat.1 isDigit).1
  rw [isSpace, Bool.or_eq_false_iff, Bool.and_eq_false_iff]
  constructor
  · rw [decide_eq_false_iff_not]
    rintro rfl
    cases isDigit
  · right
    rw [decide_eq_false_iff_not, Char.le_def, UInt32.le_iff_toNat_le]
    exact fun le => absurd (digit.trans le) (by decide)

theorem foldl_digits (digits : List Char) (isDigit : ∀ d ∈ digits, d.isDigit = true) (n : Nat) :
    digits.foldl (fun (n : Int) d => 10 * n + (d.toNat - '0'.toNat)) n =
      (Nat.ofDigitChars 10 digits n : Int) := by
  induction digits generalizing n with
  | nil => rfl
  | cons d digits ih =>
    have zero : 48 ≤ d.toNat := (Char.isDigit_iff_toNat.1 (isDigit d (.head _))).1
    rw [foldl_cons, Nat.ofDigitChars_cons, ← ih fun d member => isDigit d (.tail _ member)]
    congr 1
    show (10 * n + (d.toNat - 48) : Int) = ((10 * n + (d.toNat - 48) : Nat) : Int)
    omega

theorem foldl_toDigits :
    (Nat.toDigits 10 n).foldl (fun (n : Int) d => 10 * n + (d.toNat - '0'.toNat)) 0 = n := by
  have digits := foldl_digits (Nat.toDigits 10 n)
    (fun _ member => Nat.isDigit_of_mem_toDigits (by decide) (by decide) member) 0
  rw [Nat.ofDigitChars_ten_toDigits] at digits
  exact digits

def EndsNumber (rest : CStr) : Prop := ∀ c ∈ rest.head?, c.isDigit = false

theorem takeWhile_toDigits (ends : EndsNumber rest) :
    (Nat.toDigits 10 n ++ rest).takeWhile Char.isDigit = Nat.toDigits 10 n := by
  rw [takeWhile_append_of_pos fun _ member =>
    Nat.isDigit_of_mem_toDigits (by decide) (by decide) member]
  cases rest with
  | nil => simp
  | cons c rest => simp [ends c rfl]

theorem dropWhile_toDigits (ends : EndsNumber rest) :
    (Nat.toDigits 10 n ++ rest).dropWhile Char.isDigit = rest := by
  rw [dropWhile_append_of_pos fun _ member =>
    Nat.isDigit_of_mem_toDigits (by decide) (by decide) member]
  cases rest with
  | nil => rfl
  | cons c rest => simp [ends c rfl]

def intOfLong (value : Int) : BitVec 32 := BitVec.ofInt 32 (max (-2 ^ 63) (min (2 ^ 63 - 1) value))

theorem scanInt_minus (ends : EndsNumber rest) :
    scanInt ('-' :: Nat.toDigits 10 n ++ rest) = some (intOfLong (-n), rest) := by
  have text : ('-' :: Nat.toDigits 10 n ++ rest).dropWhile isSpace =
      '-' :: (Nat.toDigits 10 n ++ rest) := rfl
  unfold scanInt
  simp only [text, takeWhile_toDigits n ends, dropWhile_toDigits n ends, foldl_toDigits,
    Nat.toDigits_ne_nil, if_false, if_true]
  rfl

theorem scanInt_digits (ends : EndsNumber rest) :
    scanInt (Nat.toDigits 10 n ++ rest) = some (intOfLong n, rest) := by
  have first {c : Char} {text : CStr} (start : Nat.toDigits 10 n ++ rest = c :: text) :
      c.isDigit = true := by
    have nonempty : Nat.toDigits 10 n ≠ [] := Nat.toDigits_ne_nil
    obtain ⟨d, digits, cons⟩ := exists_cons_of_ne_nil nonempty
    rw [cons] at start
    cases start
    exact Nat.isDigit_of_mem_toDigits (by decide) (by decide) (cons ▸ mem_cons_self)
  have text : (Nat.toDigits 10 n ++ rest).dropWhile isSpace = Nat.toDigits 10 n ++ rest := by
    cases start : Nat.toDigits 10 n ++ rest with
    | nil => rfl
    | cons c text =>
      rw [dropWhile_cons, isSpace_of_isDigit (first start)]
      rfl
  unfold scanInt
  simp only [text]
  split
  next minus => exact absurd (first minus) (by decide)
  next plus => exact absurd (first plus) (by decide)
  next =>
    simp only [takeWhile_toDigits n ends, dropWhile_toDigits n ends, foldl_toDigits,
      Nat.toDigits_ne_nil, if_false]
    rfl

theorem scanInt_printInt (id : BitVec 32) (ends : EndsNumber rest) :
    scanInt (printInt id ++ rest) = some (id, rest) := by
  have low := BitVec.le_toInt id
  have high := BitVec.toInt_lt (x := id)
  have value : intOfLong id.toInt = id := by
    rw [intOfLong, min_eq_right (by omega), max_eq_right (by omega), BitVec.ofInt_toInt]
  unfold printInt
  split
  next negative =>
    rw [scanInt_minus _ ends, show -(id.toInt.natAbs : Int) = id.toInt by omega, value]
  next positive =>
    rw [scanInt_digits _ ends, show (id.toInt.natAbs : Int) = id.toInt by omega, value]

theorem scanIdGroup_printIdGroup (letter : Char) (ids : IdGroup) (ends : EndsNumber rest) :
    scanIdGroup letter (printIdGroup letter ids ++ rest) = some ids := by
  have colon {rest : CStr} : EndsNumber (':' :: rest) := fun c member => by
    cases member
    rfl
  simp only [scanIdGroup, printIdGroup, append_assoc, cons_append, scanChar, if_true,
    Option.bind_eq_bind, Option.bind_some, scanInt_printInt _ colon, scanInt_printInt _ ends]

theorem scanUnknownFiles_print (owner group : BitVec 32) (ends : EndsNumber rest) :
    scanUnknownFiles ('f' :: printInt owner ++ '.' :: printInt group ++ rest) =
      some (owner, group) := by
  have dot {rest : CStr} : EndsNumber ('.' :: rest) := fun c member => by
    cases member
    rfl
  simp only [scanUnknownFiles, append_assoc, cons_append, scanChar, if_true,
    Option.bind_eq_bind, Option.bind_some, scanInt_printInt _ dot, scanInt_printInt _ ends]

/-! ## Finding the letters -/

theorem strchr_self (c : Char) (text : CStr) : strchr (c :: text) c = some (c :: text) := by
  simp [strchr]

theorem strchr_append {front : CStr} (absent : c ∉ front) (text : CStr) :
    strchr (front ++ text) c = strchr text c := by
  have skipped : (front ++ text).dropWhile (· ≠ c) = text.dropWhile (· ≠ c) :=
    dropWhile_append_of_pos fun d member =>
      decide_eq_true fun same => absent (same ▸ member)
  rw [strchr, strchr, skipped]

theorem notMem_printIdGroup {letter : Char} (other : c ≠ letter) (colon : c ≠ ':') (minus : c ≠ '-')
    (noDigit : c.isDigit = false) (ids : IdGroup) : c ∉ printIdGroup letter ids := by
  have absent (id : BitVec 32) : c ∉ printInt id := by
    intro member
    rcases mem_printInt member with same | digit
    · exact minus same
    · rw [noDigit] at digit
      cases digit
  simp [printIdGroup, other, colon, absent]

theorem strchr_printIdGroup (letter : Char) (ids : IdGroup) (rest : CStr) :
    strchr (printIdGroup letter ids ++ rest) letter = some (printIdGroup letter ids ++ rest) :=
  strchr_self letter _

def unknownText : Option (BitVec 32 × BitVec 32) → CStr
  | some (owner, group) => ',' :: 'f' :: printInt owner ++ '.' :: printInt group
  | none => []

def permissionText (simulated : Bool) : CStr := if simulated then [] else [',', 'p']

section Packed

variable (uids gids : IdGroup) (unknown : Option (BitVec 32 × BitVec 32)) (simulated : Bool)

/-- The text, without the name of the variable. -/
def packedIds : CStr :=
  printIdGroup 'u' uids ++ ',' :: printIdGroup 'g' gids ++ unknownText unknown ++
    permissionText simulated

theorem endsNumber_permissionText : EndsNumber (permissionText simulated) := by
  cases simulated <;> exact fun c first => by cases first <;> rfl

theorem endsNumber_unknownText :
    EndsNumber (unknownText unknown ++ permissionText simulated) := by
  cases unknown with
  | none => exact endsNumber_permissionText simulated
  | some ids =>
    intro c first
    cases first
    rfl

theorem notMem_unknownText : 'p' ∉ unknownText unknown := by
  have absent (id : BitVec 32) : 'p' ∉ printInt id := fun member => by
    rcases mem_printInt member with same | digit
    · cases same
    · cases digit
  cases unknown with
  | none => exact not_mem_nil
  | some ids => simp [unknownText, absent]

theorem strchr_packedIds {c : Char} (u : c ≠ 'u') (g : c ≠ 'g') (colon : c ≠ ':') (comma : c ≠ ',')
    (minus : c ≠ '-') (noDigit : c.isDigit = false) :
    strchr (packedIds uids gids unknown simulated) c =
      strchr (unknownText unknown ++ permissionText simulated) c := by
  rw [packedIds, append_assoc, strchr_append]
  rw [mem_append, mem_cons]
  rintro (inUids | rfl | inGids)
  · exact notMem_printIdGroup u colon minus noDigit uids inUids
  · exact comma rfl
  · exact notMem_printIdGroup g colon minus noDigit gids inGids

theorem scan_packedIds_uids :
    (strchr (packedIds uids gids unknown simulated) 'u').bind (scanIdGroup 'u') = some uids := by
  have start : packedIds uids gids unknown simulated = printIdGroup 'u' uids ++
      (',' :: printIdGroup 'g' gids ++ unknownText unknown ++ permissionText simulated) := by
    simp only [packedIds, append_assoc]
  rw [start, strchr_printIdGroup, Option.bind_some]
  refine scanIdGroup_printIdGroup 'u' uids fun c first => ?_
  cases first
  rfl

theorem scan_packedIds_gids :
    (strchr (packedIds uids gids unknown simulated) 'g').bind (scanIdGroup 'g') = some gids := by
  have start : packedIds uids gids unknown simulated = (printIdGroup 'u' uids ++ [',']) ++
      (printIdGroup 'g' gids ++ (unknownText unknown ++ permissionText simulated)) := by
    simp only [packedIds, append_assoc, cons_append, nil_append]
  have absent : 'g' ∉ printIdGroup 'u' uids ++ [','] := by
    rw [mem_append]
    rintro (inUids | comma)
    · exact notMem_printIdGroup (by decide) (by decide) (by decide) (by decide) uids inUids
    · cases mem_singleton.1 comma
  rw [start, strchr_append absent, strchr_printIdGroup, Option.bind_some]
  exact scanIdGroup_printIdGroup 'g' gids (endsNumber_unknownText unknown simulated)

theorem scan_packedIds_unknown :
    (strchr (packedIds uids gids unknown simulated) 'f').bind scanUnknownFiles = unknown := by
  rw [strchr_packedIds uids gids unknown simulated (by decide) (by decide) (by decide) (by decide)
    (by decide) (by decide)]
  cases unknown with
  | none => cases simulated <;> rfl
  | some ids =>
    have found : strchr (unknownText (some ids) ++ permissionText simulated) 'f' =
        some ('f' :: printInt ids.1 ++ '.' :: printInt ids.2 ++ permissionText simulated) :=
      (strchr_append (by decide : 'f' ∉ [',']) _).trans (strchr_self 'f' _)
    rw [found]
    exact scanUnknownFiles_print ids.1 ids.2 (endsNumber_permissionText simulated)

theorem strchr_packedIds_permissions :
    (strchr (packedIds uids gids unknown simulated) 'p').isSome = !simulated := by
  rw [strchr_packedIds uids gids unknown simulated (by decide) (by decide) (by decide) (by decide)
    (by decide) (by decide), strchr_append (notMem_unknownText unknown)]
  cases simulated <;> rfl

end Packed

/-- What a process fills its variables with, from a text that has everything. -/
theorem initialize_text (os : IdSource) {text : CStr} {uids gids : IdGroup}
    {unknown : Option (BitVec 32 × BitVec 32)} {simulated : Bool}
    (hasUids : (strchr text 'u').bind (scanIdGroup 'u') = some uids)
    (hasGids : (strchr text 'g').bind (scanIdGroup 'g') = some gids)
    (hasUnknown : (strchr text 'f').bind scanUnknownFiles = unknown)
    (hasPermissions : (strchr text 'p').isSome = !simulated) :
    let ids := initializeSimulatedIds { os with sboxVpermIds := some text } .initial
    ids.uids = uids ∧ ids.gids = gids ∧ vpermSetOwnerAndGroupOfUnknownFiles ids = unknown ∧
      ids.simulateRootFsPermissions = simulated := by
  simp only [initializeSimulatedIds, SimulatedIds.initial, vpermSetOwnerAndGroupOfUnknownFiles,
    Option.bind_some, hasUids, hasGids, hasUnknown, hasPermissions, Option.getD_some,
    Bool.false_eq_true, if_false, Bool.or_false, true_and]
  constructor
  · cases unknown <;> rfl
  · cases simulated <;> rfl

theorem vpermExportIdsAsStringForExec_eq (source : IdSource) (ids : SimulatedIds) (varname : CStr)
    (mode suid sgid : BitVec 32) :
    let filled := initializeSimulatedIds source ids
    (vpermExportIdsAsStringForExec source ids varname mode suid sgid none).2 =
      varname ++ packedIds (filled.uids.forExec (mode &&& sIsuid != 0) suid)
        (filled.gids.forExec (mode &&& sIsgid != 0) sgid)
        (vpermSetOwnerAndGroupOfUnknownFiles filled) filled.simulateRootFsPermissions := by
  intro filled
  have unknown : unknownText (vpermSetOwnerAndGroupOfUnknownFiles filled) =
      if filled.setOwnerAndGroupOfUnknownFiles then
        ',' :: 'f' :: printInt filled.unknownFileOwner ++ '.' :: printInt filled.unknownFileGroup
      else [] := by
    rw [vpermSetOwnerAndGroupOfUnknownFiles]
    split <;> rfl
  rw [packedIds, unknown]
  simp only [vpermExportIdsAsStringForExec, permissionText, append_assoc]
  rfl

/-- The new process has the same ids, but for the effects of the set-id bits: these replace the
effective ids, and the saved ids become the effective ones. -/
theorem ids_survive_exec (source : IdSource) (ids : SimulatedIds) (varname : CStr)
    (mode suid sgid : BitVec 32) (os : IdSource) :
    let before := initializeSimulatedIds source ids
    ∃ text, (vpermExportIdsAsStringForExec source ids varname mode suid sgid none).2 =
        varname ++ text ∧
      let after := initializeSimulatedIds { os with sboxVpermIds := some text } .initial
      let euid := if mode &&& sIsuid ≠ 0 then suid else before.uids.eff
      let egid := if mode &&& sIsgid ≠ 0 then sgid else before.gids.eff
      after.uids = ⟨before.uids.real, euid, euid, before.uids.fs⟩ ∧
        after.gids = ⟨before.gids.real, egid, egid, before.gids.fs⟩ ∧
        vpermSetOwnerAndGroupOfUnknownFiles after = vpermSetOwnerAndGroupOfUnknownFiles before ∧
        after.simulateRootFsPermissions = before.simulateRootFsPermissions := by
  intro before
  refine ⟨_, vpermExportIdsAsStringForExec_eq source ids varname mode suid sgid, ?_⟩
  intro after euid egid
  obtain ⟨uids, gids, unknown, simulated⟩ := initialize_text os (scan_packedIds_uids _ _ _ _)
    (scan_packedIds_gids (before.uids.forExec (mode &&& sIsuid != 0) suid)
      (before.gids.forExec (mode &&& sIsgid != 0) sgid)
      (vpermSetOwnerAndGroupOfUnknownFiles before) before.simulateRootFsPermissions)
    (scan_packedIds_unknown _ _ _ _) (strchr_packedIds_permissions _ _ _ _)
  have forExec (ids : IdGroup) (bits owner : BitVec 32) :
      ids.forExec (bits != 0) owner =
        ⟨ids.real, if bits ≠ 0 then owner else ids.eff, if bits ≠ 0 then owner else ids.eff,
          ids.fs⟩ := by
    simp only [IdGroup.forExec, bne_iff_ne]
  exact ⟨uids.trans (forExec _ _ _), gids.trans (forExec _ _ _), unknown, simulated⟩

end Scratchbox
