import Scratchbox.SimulatedIds

/-!
# Network rules

The rule engine of `net_rules.c`, which decides whether a socket call may go on and with
which address, and the loader of `init_net_modes.lua`, which stores the rules. The engine
takes the first rule of a list whose conditions match. A matching rule that leads to other
rules decides for good: the search goes on in its list and does not come back.

`network_default_deny` says that a call is allowed exactly if the rule that is selected in
this way (`Selected`) is an allow rule.
-/

namespace Scratchbox

/-! ## Addresses -/

/-- `struct in6_addr`. -/
abbrev In6Addr := Vector (BitVec 8) 16

/-- The conversions of the C library: `inet_pton`, which has no address for an empty text, and
`inet_ntop`. IPv4 addresses are in the byte order of the host. -/
structure InetOps where
  inetPton4 : CStr → Option (BitVec 32)
  inetPton6 : CStr → Option In6Addr
  inetNtop4 : BitVec 32 → Option CStr
  inetNtop6 : In6Addr → Option CStr
  inetPton4_nil : inetPton4 [] = none
  inetPton6_nil : inetPton6 [] = none

/-- The text before and after the first slash, found by `strchr`. -/
def cutAtSlash (s : CStr) : Option (CStr × CStr) :=
  match s.dropWhile (· ≠ '/') with
  | [] => none
  | _ :: rest => some (s.takeWhile (· ≠ '/'), rest)

/-- `atoi`, which reads a number as `%d` does; `0` if there is none. -/
def atoi (s : CStr) : Int := ((scanInt s).map (·.1.toInt)).getD 0

def compareIpv4Addrs (inet : InetOps) (address addressPattern : CStr) : Bool :=
  if address = addressPattern then true
  else
    match inet.inetPton4 address with
    | none => false
    | some addr32 =>
      if addressPattern.head?.any Char.isDigit then
        match cutAtSlash addressPattern with
        | none => false
        | some (maskCopy, bits) =>
          let maskBits := atoi bits
          if 0 < maskBits ∧ maskBits ≤ 32 then
            match inet.inetPton4 maskCopy with
            | none => false
            | some mask32 =>
              addr32 &&& (BitVec.allOnes 32 <<< (32 - maskBits).toNat) = mask32
          else false
      else addressPattern = "INADDR_ANY".toList ∧ addr32 = 0

/-- The address mask of `compare_ipv6_addrs`: whole bytes, then the bits that are left. -/
def in6AddrMask (maskBits : Nat) : In6Addr :=
  Vector.ofFn fun i =>
    let m := maskBits - 8 * i.val
    if 8 ≤ m then 0xFF else if 0 < m then 0xFF <<< (8 - m) else 0

def compareIpv6Addrs (inet : InetOps) (address addressPattern : CStr) : Bool :=
  if address = addressPattern then true
  else
    match inet.inetPton6 address with
    | none => false
    | some addr =>
      if addressPattern = "IN6ADDR_ANY".toList then addr = Vector.replicate 16 0
      else
        match cutAtSlash addressPattern with
        | none => false
        | some (prefixCopy, bits) =>
          let maskBits := atoi bits
          if 0 < maskBits ∧ maskBits ≤ 128 then
            match inet.inetPton6 prefixCopy with
            | none => false
            | some net => Vector.zipWith (· &&& ·) (in6AddrMask maskBits.toNat) addr = net
          else false

def testNetAddrMatch (inet : InetOps) (addrType address addressPattern : CStr) : Bool :=
  if "ipv4".toList <+: addrType then compareIpv4Addrs inet address addressPattern
  else if "ipv6".toList <+: addrType then compareIpv6Addrs inet address addressPattern
  else false

/-! ## Rules -/

/-- `rtree_net_ruletype`. -/
inductive NetRuletype where
  | deny
  | allow
  | rules
  | unknown
  deriving DecidableEq

/-- The offset of a string: zero, or an offset with the string that is there, if there is
one. -/
abbrev StringField := Option (Option CStr)

/-- The fields of `ruletree_net_rule_t`, without those for logging. -/
structure NetRuleFields where
  ruletype : NetRuletype
  funcName : StringField := none
  binaryName : StringField := none
  address : StringField := none
  port : UInt32 := 0
  newAddress : StringField := none
  newPort : UInt32 := 0
  errno : UInt32 := 0
  deriving DecidableEq

/-- `ruletree_net_rule_t`: the fields, and the list at `rtree_net_rules` if there is one. A
list can have holes. -/
structure NetRule extends NetRuleFields where
  rules : Option (List (Option NetRule)) := none

/-- The arguments of `sb2_map_network_addr`. -/
structure NetCall where
  binaryName : Option CStr
  realfnname : Option CStr
  addrType : CStr
  origDstAddr : CStr
  origPort : UInt32

/-- The test of a name: it is not asked for, or it is the same. -/
def stringFieldMatches (field : StringField) (name : Option CStr) : Bool :=
  match field with
  | none => true
  | some text => text.isSome && name.isSome && text = name

/-- The tests of `find_net_rule`. -/
def netRuleMatches (inet : InetOps) (call : NetCall) (rule : NetRuleFields) : Bool :=
  if rule.port ≠ 0 ∧ rule.port ≠ call.origPort then false
  else if !stringFieldMatches rule.funcName call.realfnname then false
  else if !stringFieldMatches rule.binaryName call.binaryName then false
  else
    match rule.address with
    | none => true
    | some none => false
    | some (some addr) => testNetAddrMatch inet call.addrType call.origDstAddr addr

mutual

def findNetRule (inet : InetOps) (call : NetCall) : List (Option NetRule) → Option NetRule
  | [] => none
  | item :: items =>
    match findInItem inet call item with
    | some result => result
    | none => findNetRule inet call items

/-- One round of the loop: what is returned, or `none` to go on. -/
def findInItem (inet : InetOps) (call : NetCall) : Option NetRule → Option (Option NetRule)
  | none => none
  | some rule => findInRule inet call rule

def findInRule (inet : InetOps) (call : NetCall) : NetRule → Option (Option NetRule)
  | ⟨fields, rules⟩ =>
    if netRuleMatches inet call fields then some (findInGroup inet call ⟨fields, rules⟩ rules)
    else none

/-- What a matching rule returns: what is found in its own list, or itself. -/
def findInGroup (inet : InetOps) (call : NetCall) (rule : NetRule) :
    Option (List (Option NetRule)) → Option NetRule
  | none => some rule
  | some group => findNetRule inet call group

end

/-- A buffer of characters, and whether its text ends inside of it. -/
structure CharBuf where
  text : CStr
  terminated : Bool := true
  deriving DecidableEq

def strncpy (s : CStr) (size : Nat) : CharBuf := ⟨s.take size, s.length < size⟩

/-- `*result_addr_buf` and `*result_port`. -/
structure NetResult where
  addr : CharBuf
  port : UInt32
  deriving DecidableEq

def codeEPERM : UInt32 := 1

/-- The errno that a rule leads to, or zero. -/
def netRuleCode (rule : NetRuleFields) : UInt32 :=
  match rule.ruletype with
  | .deny => if rule.errno ≠ 0 then rule.errno else codeEPERM
  | .allow => 0
  | .rules | .unknown => codeEPERM

/-- `apply_net_rule`: the returned code and the results. -/
def applyNetRule (rule : NetRuleFields) (resultAddrBufLen : Nat) (result : NetResult) :
    UInt32 × NetResult :=
  let port := if rule.newPort ≠ 0 then rule.newPort else result.port
  let addr :=
    match rule.newAddress with
    | some (some nAddr) => strncpy nAddr resultAddrBufLen
    | some none | none => result.addr
  (netRuleCode rule, ⟨addr, port⟩)

/-- The network part of a session: the active mode, the string at `NET_RULES`, `#default`,
and the lists at `NET_RULES`, mode, address type; a list that is missing is empty. -/
structure NetSession where
  inet : InetOps
  sboxNetworkMode : Option CStr
  defaultNetMode : Option CStr
  netRules : CStr → CStr → List (Option NetRule)

def NetSession.modename (session : NetSession) : Option CStr :=
  session.sboxNetworkMode.or session.defaultNetMode

/-- `sb2_map_network_addr`: the returned code and the results, which are not changed if no
rule is found. -/
def sb2MapNetworkAddr (session : NetSession) (call : NetCall) (resultAddrBufLen : Nat)
    (result : NetResult) : UInt32 × NetResult :=
  match session.modename with
  | none => (codeEPERM, result)
  | some modename =>
    match findNetRule session.inet call (session.netRules modename call.addrType) with
    | none => (codeEPERM, result)
    | some rule =>
      applyNetRule rule.toNetRuleFields resultAddrBufLen
        ⟨strncpy call.origDstAddr resultAddrBufLen, call.origPort⟩

/-! ## Loading -/

/-- A Lua table in a list of network rules, without its list of rules. `keywordsOk`: all
keywords are known, and the values have the types that are required. -/
structure NetRuleTable where
  keywordsOk : Bool := true
  allow : Bool := false
  deny : Bool := false
  address : Option CStr := none
  port : Option UInt32 := none
  newAddress : Option CStr := none
  newPort : Option UInt32 := none
  funcName : Option CStr := none
  binaryName : Option CStr := none
  errno : Option CStr := none

/-- The table with its `rules`; what is not a table in the list is left out. -/
structure LuaNetRule extends NetRuleTable where
  rules : Option (List (Option LuaNetRule)) := none

/-- The errno values that can be set in network rules; `EACCES` is the default. -/
def netErrnoNumber (errnoStr : CStr) : UInt32 :=
  if errnoStr = "ENETUNREACH".toList then 101
  else if errnoStr = "EACCES".toList then 13
  else if errnoStr = "EPERM".toList then 1
  else if errnoStr = "EFAULT".toList then 14
  else if errnoStr = "EADDRNOTAVAIL".toList then 99
  else if errnoStr = "EADDRINUSE".toList then 98
  else 13

/-- The rule that is stored for a table: strings are stored as they are. -/
def NetRuleTable.store (rule : NetRuleTable) (ruletype : NetRuletype)
    (subrules : Option (List (Option NetRule))) : NetRule where
  ruletype
  funcName := rule.funcName.map some
  binaryName := rule.binaryName.map some
  address := rule.address.map some
  port := rule.port.getD 0
  newAddress := rule.newAddress.map some
  newPort := rule.newPort.getD 0
  errno := (rule.errno.map netErrnoNumber).getD 0
  rules := subrules

mutual

/-- `add_one_net_rule`; `none` for a broken rule. -/
def addOneNetRule : LuaNetRule → Option NetRule
  | ⟨rule, rules⟩ =>
    let subrules := addNetRuleChain rules
    if rule.allow then
      if rule.keywordsOk && !rule.deny && rules.isNone then some (rule.store .allow none) else none
    else if rule.deny then
      if rule.keywordsOk && rules.isNone then some (rule.store .deny none) else none
    else if rules.isSome then
      if rule.keywordsOk then some (rule.store .rules subrules) else none
    else none

/-- `add_net_rule_chain`; `none` for the offset zero. -/
def addNetRuleChain : Option (List (Option LuaNetRule)) → Option (List (Option NetRule))
  | none => none
  | some [] => none
  | some (rule :: rules) => some (addNetRule rule :: addNetRules rules)

/-- The items of a chain. -/
def addNetRules : List (Option LuaNetRule) → List (Option NetRule)
  | [] => []
  | rule :: rules => addNetRule rule :: addNetRules rules

/-- One item of a chain: nothing is stored for what is not a table. -/
def addNetRule : Option LuaNetRule → Option NetRule
  | none => none
  | some rule => addOneNetRule rule

end

/-! ## The selected rule -/

section Selection

variable {inet : InetOps} {call : NetCall}

structure NetRule.Matches (inet : InetOps) (call : NetCall) (rule : NetRule) : Prop where
  port : rule.port = 0 ∨ rule.port = call.origPort
  funcName : ∀ name, rule.funcName = some name → name ≠ none ∧ name = call.realfnname
  binaryName : ∀ name, rule.binaryName = some name → name ≠ none ∧ name = call.binaryName
  address : ∀ addr, rule.address = some addr →
    ∃ text, addr = some text ∧ testNetAddrMatch inet call.addrType call.origDstAddr text = true

/-- The rule that decides about a call: the first one that matches, or, if that one leads to a
list, the rule that decides in this list. -/
inductive Selected (inet : InetOps) (call : NetCall) : List (Option NetRule) → NetRule → Prop
  | leaf {before after : List (Option NetRule)} {rule : NetRule} :
      (∀ r, some r ∈ before → ¬ r.Matches inet call) → rule.Matches inet call →
      rule.rules = none → Selected inet call (before ++ some rule :: after) rule
  | group {before after group : List (Option NetRule)} {rule found : NetRule} :
      (∀ r, some r ∈ before → ¬ r.Matches inet call) → rule.Matches inet call →
      rule.rules = some group → Selected inet call group found →
      Selected inet call (before ++ some rule :: after) found

theorem stringFieldMatches_iff {field : StringField} {name : Option CStr} :
    stringFieldMatches field name = true ↔
      ∀ text, field = some text → text ≠ none ∧ text = name := by
  rcases field with - | - | text
  · simp [stringFieldMatches]
  · simp [stringFieldMatches]
  · cases name with
    | none => simp [stringFieldMatches]
    | some name => simp [stringFieldMatches]

variable {rule : NetRule} {items : List (Option NetRule)}

theorem netRuleMatches_iff :
    netRuleMatches inet call rule.toNetRuleFields = true ↔ rule.Matches inet call := by
  unfold netRuleMatches
  constructor
  · intro h
    split at h
    · cases h
    · rename_i hport
      split at h
      · cases h
      · rename_i hfunc
        split at h
        · cases h
        · rename_i hbinary
          refine ⟨?_, stringFieldMatches_iff.1 (by simpa using hfunc),
            stringFieldMatches_iff.1 (by simpa using hbinary), ?_⟩
          · by_cases hzero : rule.port = 0
            · exact .inl hzero
            · exact .inr (not_not.1 fun hne => hport ⟨hzero, hne⟩)
          · intro addr haddr
            rw [haddr] at h
            cases addr with
            | none => cases h
            | some text => exact ⟨text, rfl, h⟩
  · intro h
    have hport : ¬ (rule.port ≠ 0 ∧ rule.port ≠ call.origPort) := fun hne =>
      h.port.elim hne.1 hne.2
    rw [if_neg hport, stringFieldMatches_iff.2 h.funcName, stringFieldMatches_iff.2 h.binaryName]
    simp only [Bool.not_true, Bool.false_eq_true, if_false]
    split
    · rfl
    · rename_i haddr
      obtain ⟨text, htext, -⟩ := h.address _ haddr
      cases htext
    · rename_i addr haddr
      obtain ⟨text, htext, hmatch⟩ := h.address _ haddr
      cases htext
      exact hmatch

theorem findNetRule_hole (items : List (Option NetRule)) :
    findNetRule inet call (none :: items) = findNetRule inet call items := by
  rw [findNetRule, findInItem]

theorem findNetRule_match (h : rule.Matches inet call) (items : List (Option NetRule)) :
    findNetRule inet call (some rule :: items) = findInGroup inet call rule rule.rules := by
  obtain ⟨fields, rules⟩ := rule
  rw [findNetRule, findInItem, findInRule, if_pos (netRuleMatches_iff.2 h)]

theorem findNetRule_pass (h : ¬ rule.Matches inet call) (items : List (Option NetRule)) :
    findNetRule inet call (some rule :: items) = findNetRule inet call items := by
  obtain ⟨fields, rules⟩ := rule
  rw [findNetRule, findInItem, findInRule, if_neg fun hm => h (netRuleMatches_iff.1 hm)]

theorem findNetRule_behind {before : List (Option NetRule)}
    (h : ∀ r, some r ∈ before → ¬ r.Matches inet call) (items : List (Option NetRule)) :
    findNetRule inet call (before ++ items) = findNetRule inet call items := by
  induction before with
  | nil => rfl
  | cons item before ih =>
    have hrest := ih fun r hr => h r (List.mem_cons_of_mem _ hr)
    cases item with
    | none => rw [List.cons_append, findNetRule_hole, hrest]
    | some rule => rw [List.cons_append, findNetRule_pass (h rule List.mem_cons_self), hrest]

theorem findNetRule_of_selected (h : Selected inet call items rule) :
    findNetRule inet call items = some rule := by
  induction h with
  | leaf hbefore hmatch hrules =>
    rw [findNetRule_behind hbefore, findNetRule_match hmatch, hrules, findInGroup]
  | group hbefore hmatch hrules _ ih =>
    rw [findNetRule_behind hbefore, findNetRule_match hmatch, hrules, findInGroup, ih]

theorem Selected.behind {item : Option NetRule} (hitem : ∀ r, item = some r → ¬ r.Matches inet call)
    (h : Selected inet call items rule) : Selected inet call (item :: items) rule := by
  have hcons : ∀ {before : List (Option NetRule)}, (∀ r, some r ∈ before → ¬ r.Matches inet call) →
      ∀ r, some r ∈ item :: before → ¬ r.Matches inet call := by
    intro before hbefore r hr
    rcases List.mem_cons.1 hr with heq | hr
    · exact hitem r heq.symm
    · exact hbefore r hr
  cases h with
  | leaf hbefore hmatch hrules => exact .leaf (hcons hbefore) hmatch hrules
  | group hbefore hmatch hrules hfound => exact .group (hcons hbefore) hmatch hrules hfound

theorem selected_of_findNetRule (items : List (Option NetRule))
    (h : findNetRule inet call items = some rule) : Selected inet call items rule := by
  match items with
  | [] =>
    rw [findNetRule] at h
    cases h
  | none :: items =>
    rw [findNetRule_hole] at h
    refine (selected_of_findNetRule items h).behind fun r heq => ?_
    cases heq
  | some candidate :: items =>
    by_cases hmatch : candidate.Matches inet call
    · rw [findNetRule_match hmatch] at h
      have hnone : ∀ r : NetRule, some r ∈ [] → ¬ r.Matches inet call := fun _ hr =>
        absurd hr List.not_mem_nil
      cases hrules : candidate.rules with
      | none =>
        rw [hrules, findInGroup] at h
        cases h
        exact .leaf hnone hmatch hrules
      | some group =>
        rw [hrules, findInGroup] at h
        exact .group hnone hmatch hrules (selected_of_findNetRule group h)
    · rw [findNetRule_pass hmatch] at h
      refine (selected_of_findNetRule items h).behind fun r heq => ?_
      cases heq
      exact hmatch
termination_by sizeOf items
decreasing_by
  · rw [List.cons.sizeOf_spec]
    omega
  · obtain ⟨fields, rules⟩ := candidate
    dsimp only at hrules
    rw [hrules, List.cons.sizeOf_spec, Option.some.sizeOf_spec, NetRule.mk.sizeOf_spec,
      Option.some.sizeOf_spec]
    omega
  · rw [List.cons.sizeOf_spec]
    omega

theorem findNetRule_eq_some_iff :
    findNetRule inet call items = some rule ↔ Selected inet call items rule :=
  ⟨selected_of_findNetRule items, findNetRule_of_selected⟩

end Selection

theorem sb2MapNetworkAddr_of_selected {session : NetSession} {call : NetCall} {modename : CStr}
    {rule : NetRule} (hmode : session.modename = some modename)
    (hselected : Selected session.inet call (session.netRules modename call.addrType) rule)
    (resultAddrBufLen : Nat) (result : NetResult) :
    sb2MapNetworkAddr session call resultAddrBufLen result =
      applyNetRule rule.toNetRuleFields resultAddrBufLen
        ⟨strncpy call.origDstAddr resultAddrBufLen, call.origPort⟩ := by
  unfold sb2MapNetworkAddr
  rw [hmode]
  dsimp only
  rw [findNetRule_of_selected hselected]

theorem netRuleCode_eq_zero {rule : NetRuleFields} :
    netRuleCode rule = 0 ↔ rule.ruletype = .allow := by
  unfold netRuleCode
  cases rule.ruletype with
  | deny =>
    dsimp only
    split
    · rename_i herrno
      exact ⟨fun h => absurd h herrno, nofun⟩
    · exact ⟨nofun, nofun⟩
  | allow => exact ⟨fun _ => rfl, fun _ => rfl⟩
  | rules => exact ⟨nofun, nofun⟩
  | unknown => exact ⟨nofun, nofun⟩

/-- A call is allowed exactly if the selected rule of the active mode is an allow rule. -/
theorem network_default_deny (session : NetSession) (call : NetCall) (resultAddrBufLen : Nat)
    (result : NetResult) :
    (sb2MapNetworkAddr session call resultAddrBufLen result).1 = 0 ↔
      ∃ modename rule, session.modename = some modename ∧
        Selected session.inet call (session.netRules modename call.addrType) rule ∧
        rule.ruletype = .allow := by
  constructor
  · intro hcode
    unfold sb2MapNetworkAddr at hcode
    split at hcode
    · cases hcode
    · rename_i modename hmode
      split at hcode
      · cases hcode
      · rename_i rule hfind
        exact ⟨modename, rule, hmode, findNetRule_eq_some_iff.1 hfind,
          netRuleCode_eq_zero.1 hcode⟩
  · rintro ⟨modename, rule, hmode, hselected, hallow⟩
    rw [sb2MapNetworkAddr_of_selected hmode hselected]
    exact netRuleCode_eq_zero.2 hallow

end Scratchbox
