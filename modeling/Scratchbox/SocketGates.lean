import Scratchbox.NetRules
import Scratchbox.Resolution

/-!
# Socket calls

The gates of `bind`, `connect`, `sendto` and `sendmsg` in `preload/network.c` ask the rule engine
about the address as a text, and convert the answer to the address of the real call. If this fails,
the real call is made with the address of the caller (`new_address_enforced_iff`).

The calls that return an address reverse its path in the buffer of the caller. They stay inside it
unless it ends in the family (`returned_address_iff`).
-/

namespace Scratchbox

open List

/-! ## Addresses of sockets -/

/-- `struct sockaddr_in`. -/
structure SockaddrIn where
  sinAddr : BitVec 32
  sinPort : UInt16
  deriving DecidableEq

/-- `struct sockaddr_in6`. -/
structure SockaddrIn6 where
  sin6Addr : In6Addr
  sin6Port : UInt16
  sin6Flowinfo : UInt32 := 0
  sin6ScopeId : UInt32 := 0
  deriving DecidableEq

/-- `struct sockaddr`, by its family. An address of `AF_UNIX` is a path, or an abstract name
that begins with a null character. -/
inductive Sockaddr where
  | unix (sunPath : CStr)
  | unixAbstract (name : CStr)
  | inet (addr : SockaddrIn)
  | inet6 (addr : SockaddrIn6)
  | other (saFamily : Nat)
  deriving DecidableEq

/-- What a process needs for network calls: the rules, its name, and what `sbox_map_path`
says about the path of a socket. -/
structure NetProcess extends NetSession where
  sboxBinaryName : Option CStr
  sboxMapPath : CStr → CStr → MappingResults

/-! ## Mapping an address -/

def mappedDstAddrSize : Nat := 200

def NetProcess.netCall (process : NetProcess) (realfnname addrType printableDstAddr : CStr)
    (port : UInt16) : NetCall where
  binaryName := some (process.sboxBinaryName.getD "UNKNOWN".toList)
  realfnname := some realfnname
  addrType
  origDstAddr := printableDstAddr
  origPort := port.toUInt32

/-- What is done with an address of IPv4 or IPv6. -/
inductive InetMapping (α : Type) where
  | failed (code : Nat)
  | mapped (addr : α) (port : UInt16)
  | useOrig

/-- The common part of `map_sockaddr_in` and `map_sockaddr_in6`. The text of the mapped
address is read to its end, wherever that is, when it is converted. -/
def mapInetAddr {α : Type} (inetPton : CStr → Option α) (inetNtop : α → Option CStr)
    (process : NetProcess) (realfnname addrType : CStr) (addr : α) (port : UInt16) :
    Except Fault (InetMapping α) :=
  match inetNtop addr with
  | none => .ok .useOrig
  | some printableDstAddr =>
    let (code, result) :=
      sb2MapNetworkAddr process.toNetSession
        (process.netCall realfnname addrType printableDstAddr port) mappedDstAddrSize
        ⟨⟨[], true⟩, 0⟩
    if code ≠ 0 then .ok (.failed code.toNat)
    else if result.addr.text = [] then .ok .useOrig
    else if !result.addr.terminated then .error .outOfBounds
    else
      match inetPton result.addr.text with
      | some ina => .ok (.mapped ina result.port.toUInt16)
      | none => .ok .useOrig

/-- `map_sockaddr_in`: an errno, or the mapped address and its length. -/
def mapSockaddrIn (process : NetProcess) (realfnname : CStr) (origSockaddrIn : SockaddrIn)
    (origAddrlen : Nat) (addrType : CStr) : Except Fault (Except Nat (Sockaddr × Nat)) := do
  match ← mapInetAddr process.inet.inetPton4 process.inet.inetNtop4 process realfnname addrType
    origSockaddrIn.sinAddr origSockaddrIn.sinPort with
  | .failed code => pure (.error code)
  | .mapped ina port => pure (.ok (.inet ⟨ina, port⟩, 16))
  | .useOrig => pure (.ok (.inet origSockaddrIn, origAddrlen))

def mapSockaddrIn6 (process : NetProcess) (realfnname : CStr) (origSockaddrIn6 : SockaddrIn6)
    (origAddrlen : Nat) (addrType : CStr) : Except Fault (Except Nat (Sockaddr × Nat)) := do
  match ← mapInetAddr process.inet.inetPton6 process.inet.inetNtop6 process realfnname addrType
    origSockaddrIn6.sin6Addr origSockaddrIn6.sin6Port with
  | .failed code => pure (.error code)
  | .mapped ina6 port => pure (.ok (.inet6 { sin6Addr := ina6, sin6Port := port }, 28))
  | .useOrig => pure (.ok (.inet6 origSockaddrIn6, origAddrlen))

/-- `map_sockaddr_un` for a path. -/
def mapSockaddrUn (process : NetProcess) (realfnname sunPath : CStr) :
    Except Nat (Sockaddr × Nat) :=
  let res := process.sboxMapPath realfnname sunPath
  match res.mresErrno, res.mresResultPath with
  | some err, _ => .error err.code
  | none, none => .error Errno.EINVAL.code
  | none, some path =>
    -- the size of sun_path, and ENAMETOOLONG
    if 108 ≤ path.length then .error 36 else .ok (.unix path, 2 + path.length + 1)

/-- What `map_sockaddr` returns. -/
inductive MapSockaddr where
  | operationDenied (code : Nat)
  | mapped (addr : Sockaddr) (addrlen : Nat)
  | useOrigAddr

def MapSockaddr.ofResult : Except Nat (Sockaddr × Nat) → MapSockaddr
  | .error code => .operationDenied code
  | .ok (addr, addrlen) => .mapped addr addrlen

def mapSockaddr (process : NetProcess) (realfnname : CStr) (inputAddr : Option Sockaddr)
    (inputAddrlen : Nat) (direction : CStr) : Except Fault MapSockaddr :=
  match inputAddr with
  | none => .ok .useOrigAddr
  | some (.unixAbstract name) => .ok (.mapped (.unixAbstract name) inputAddrlen)
  | some (.unix path) => .ok (.ofResult (mapSockaddrUn process realfnname path))
  | some (.inet addr) =>
    (mapSockaddrIn process realfnname addr inputAddrlen ("ipv4_".toList ++ direction)).map
      .ofResult
  | some (.inet6 addr) =>
    (mapSockaddrIn6 process realfnname addr inputAddrlen ("ipv6_".toList ++ direction)).map
      .ofResult
  | some (.other _) => .ok .useOrigAddr

/-! ## The gates -/

/-- What a gate does: it returns an errno, or makes the real call. -/
inductive GateOutcome where
  | denied (code : Nat)
  | called (addr : Option Sockaddr) (addrlen : Nat)
  deriving DecidableEq

def socketGate (direction : CStr) (process : NetProcess) (realfnname : CStr)
    (addr : Option Sockaddr) (addrlen : Nat) : Except Fault GateOutcome := do
  match ← mapSockaddr process realfnname addr addrlen direction with
  | .operationDenied code => pure (.denied code)
  | .mapped mappedAddr mappedAddrlen => pure (.called (some mappedAddr) mappedAddrlen)
  | .useOrigAddr => pure (.called addr addrlen)

def bindGate := socketGate "in".toList

def connectGate := socketGate "out".toList

def sendtoGate := socketGate "out".toList

/-- `sendmsg_gate`: the address and its length are in the message, if there is one. -/
def sendmsgGate (process : NetProcess) (realfnname : CStr) (msg : Option (Option Sockaddr × Nat)) :
    Except Fault GateOutcome :=
  match msg with
  | none => .ok (.called none 0)
  | some (msgName, msgNamelen) => socketGate "out".toList process realfnname msgName msgNamelen

inductive SocketCall where
  | bind
  | connect
  | sendto
  | sendmsg

def SocketCall.direction : SocketCall → CStr
  | .bind => "in".toList
  | .connect | .sendto | .sendmsg => "out".toList

def SocketCall.run (socketCall : SocketCall) (process : NetProcess) (realfnname : CStr)
    (addr : Sockaddr) (addrlen : Nat) : Except Fault GateOutcome :=
  match socketCall with
  | .bind => bindGate process realfnname (some addr) addrlen
  | .connect => connectGate process realfnname (some addr) addrlen
  | .sendto => sendtoGate process realfnname (some addr) addrlen
  | .sendmsg => sendmsgGate process realfnname (some (some addr, addrlen))

theorem SocketCall.run_eq (socketCall : SocketCall) (process : NetProcess) (realfnname : CStr)
    (addr : Sockaddr) (addrlen : Nat) :
    socketCall.run process realfnname addr addrlen =
      socketGate socketCall.direction process realfnname (some addr) addrlen := by
  cases socketCall with
  | bind => rfl
  | connect => rfl
  | sendto => rfl
  | sendmsg => rfl

/-! ## Enforcement -/

/-- The question to the rule engine about an address of IPv4 or IPv6, if its text can be
made. -/
def SocketCall.question (socketCall : SocketCall) (process : NetProcess) (realfnname : CStr) :
    Sockaddr → Option NetCall
  | .inet addr =>
    (process.inet.inetNtop4 addr.sinAddr).map fun text =>
      process.netCall realfnname ("ipv4_".toList ++ socketCall.direction) text addr.sinPort
  | .inet6 addr =>
    (process.inet.inetNtop6 addr.sin6Addr).map fun text =>
      process.netCall realfnname ("ipv6_".toList ++ socketCall.direction) text addr.sin6Port
  | .unix _ | .unixAbstract _ | .other _ => none

def HasAddress (inet : InetOps) (text : CStr) : Sockaddr → Prop
  | .inet addr => inet.inetPton4 text = some addr.sinAddr
  | .inet6 addr => inet.inetPton6 text = some addr.sin6Addr
  | .unix _ | .unixAbstract _ | .other _ => False

/-- The text is an address of the family of the given one. -/
def Converts (inet : InetOps) (text : CStr) : Sockaddr → Prop
  | .inet _ => ∃ ina, inet.inetPton4 text = some ina
  | .inet6 _ => ∃ ina6, inet.inetPton6 text = some ina6
  | .unix _ | .unixAbstract _ | .other _ => False

/-- The real call is made with the address that is written in the text, or not made. -/
def Enforced (inet : InetOps) (text : CStr) (outcome : Except Fault GateOutcome) : Prop :=
  ∃ done, outcome = .ok done ∧
    ∀ addr addrlen, done = .called addr addrlen → ∃ a, addr = some a ∧ HasAddress inet text a

section Enforcement

variable {process : NetProcess} {realfnname : CStr} {modename text : CStr} {rule : NetRule}
  {inet : InetOps}

theorem enforced_called {addr : Sockaddr} {addrlen : Nat} :
    Enforced inet text (.ok (.called (some addr) addrlen)) ↔ HasAddress inet text addr := by
  constructor
  · rintro ⟨done, hdone, hcalled⟩
    cases hdone
    obtain ⟨a, ha, haddress⟩ := hcalled _ _ rfl
    cases ha
    exact haddress
  · intro haddress
    refine ⟨_, rfl, fun a len hcalled => ?_⟩
    cases hcalled
    exact ⟨addr, rfl, haddress⟩

theorem not_enforced_error {fault : Fault} : ¬ Enforced inet text (.error fault) := by
  rintro ⟨done, hdone, -⟩
  cases hdone

def NetRule.mappedPort (rule : NetRule) (port : UInt16) : UInt16 :=
  (if rule.newPort ≠ 0 then rule.newPort else port.toUInt32).toUInt16

/-- The common part of the two families: the new address if there is one, or the original one,
which is not the new one. -/
theorem enforced_iff_converted {β : Type} {ina : Option β} {new : β → Sockaddr} {orig : Sockaddr}
    {newLen origLen : Nat} (hnew : ∀ b, ina = some b → HasAddress inet text (new b))
    (horig : ina = none → ¬ HasAddress inet text orig) :
    Enforced inet text
        (if text.length < mappedDstAddrSize then
          .ok (ina.elim (.called (some orig) origLen) fun b => .called (some (new b)) newLen)
        else .error .outOfBounds) ↔
      text.length < mappedDstAddrSize ∧ ∃ b, ina = some b := by
  by_cases hlength : text.length < mappedDstAddrSize
  · rw [if_pos hlength]
    cases ina with
    | none =>
      refine enforced_called.trans ⟨fun h => absurd h (horig rfl), ?_⟩
      rintro ⟨-, b, hb⟩
      cases hb
    | some b => exact enforced_called.trans ⟨fun _ => ⟨hlength, b, rfl⟩, fun _ => hnew b rfl⟩
  · rw [if_neg hlength]
    exact ⟨fun h => absurd h not_enforced_error, fun h => absurd h.1 hlength⟩

/-- What becomes of an address if an allow rule with a new address is selected: a text that is
too long for the buffer is read beyond it, and the original address is used if the text is not
an address. -/
theorem mapInetAddr_new {α : Type} {inetPton : CStr → Option α} {inetNtop : α → Option CStr}
    (hnil : inetPton [] = none) {addrType printableDstAddr : CStr} {addr : α} {port : UInt16}
    (hntop : inetNtop addr = some printableDstAddr) (hmode : process.modename = some modename)
    (hselected : Selected process.inet (process.netCall realfnname addrType printableDstAddr port)
      (process.netRules modename addrType) rule)
    (hallow : rule.ruletype = .allow) (hnew : rule.newAddress = some (some text)) :
    mapInetAddr inetPton inetNtop process realfnname addrType addr port =
      if text.length < mappedDstAddrSize then
        .ok ((inetPton text).elim .useOrig (.mapped · (rule.mappedPort port)))
      else .error .outOfBounds := by
  have happly : ∀ result, applyNetRule rule.toNetRuleFields mappedDstAddrSize result =
      (0, ⟨strncpy text mappedDstAddrSize,
        if rule.newPort ≠ 0 then rule.newPort else result.port⟩) := fun result => by
    rw [applyNetRule, hnew, netRuleCode_eq_zero.2 hallow]
  unfold mapInetAddr
  rw [hntop]
  dsimp only
  rw [sb2MapNetworkAddr_of_selected hmode hselected, happly]
  by_cases hlength : text.length < mappedDstAddrSize
  · have hcopy : strncpy text mappedDstAddrSize = ⟨text, true⟩ := by
      rw [strncpy, take_of_length_le (Nat.le_of_lt hlength), decide_eq_true hlength]
    rw [if_pos hlength, hcopy]
    dsimp only
    rw [if_neg (not_not.2 rfl)]
    by_cases hempty : text = []
    · rw [if_pos hempty, hempty, hnil]
      rfl
    · rw [if_neg hempty]
      cases inetPton text with
      | none => rfl
      | some ina => rfl
  · have hcopy : strncpy text mappedDstAddrSize = ⟨text.take mappedDstAddrSize, false⟩ := by
      rw [strncpy, decide_eq_false hlength]
    have hnonempty : text.take mappedDstAddrSize ≠ [] := by
      intro htake
      rcases take_eq_nil_iff.1 htake with hzero | hnil
      · cases hzero
      · rw [hnil] at hlength
        exact hlength (Nat.zero_lt_succ _)
    rw [if_neg hlength, hcopy]
    dsimp only
    rw [if_neg (not_not.2 rfl), if_neg hnonempty]
    rfl

/-- A call that is allowed by a rule with a new address is made with this address exactly if
the text of the rule fits into the buffer and can be converted to an address of the family. -/
theorem new_address_enforced_iff (socketCall : SocketCall) {addr : Sockaddr} (addrlen : Nat)
    {call : NetCall} (hquestion : socketCall.question process realfnname addr = some call)
    (hmode : process.modename = some modename)
    (hselected : Selected process.inet call (process.netRules modename call.addrType) rule)
    (hallow : rule.ruletype = .allow) (hnew : rule.newAddress = some (some text)) :
    Enforced process.inet text (socketCall.run process realfnname addr addrlen) ↔
      text.length < mappedDstAddrSize ∧ Converts process.inet text addr := by
  rw [SocketCall.run_eq]
  cases addr with
  | unix path => cases hquestion
  | unixAbstract name => cases hquestion
  | other family => cases hquestion
  | inet addr =>
    obtain ⟨printable, hntop, rfl⟩ := Option.map_eq_some_iff.1 hquestion
    have hgate : socketGate socketCall.direction process realfnname (some (.inet addr)) addrlen =
        if text.length < mappedDstAddrSize then
          .ok ((process.inet.inetPton4 text).elim (.called (some (.inet addr)) addrlen) fun ina =>
            .called (some (.inet ⟨ina, rule.mappedPort addr.sinPort⟩)) 16)
        else .error .outOfBounds := by
      dsimp only [socketGate, mapSockaddr, mapSockaddrIn]
      rw [mapInetAddr_new process.inet.inetPton4_nil hntop hmode hselected hallow hnew]
      cases process.inet.inetPton4 text <;> split <;> rfl
    rw [hgate]
    refine enforced_iff_converted (fun ina hina => hina) fun hnone haddress => ?_
    rw [HasAddress, hnone] at haddress
    cases haddress
  | inet6 addr =>
    obtain ⟨printable, hntop, rfl⟩ := Option.map_eq_some_iff.1 hquestion
    have hgate : socketGate socketCall.direction process realfnname (some (.inet6 addr)) addrlen =
        if text.length < mappedDstAddrSize then
          .ok ((process.inet.inetPton6 text).elim (.called (some (.inet6 addr)) addrlen) fun ina6 =>
            .called (some (.inet6 ⟨ina6, rule.mappedPort addr.sin6Port, 0, 0⟩)) 28)
        else .error .outOfBounds := by
      dsimp only [socketGate, mapSockaddr, mapSockaddrIn6]
      rw [mapInetAddr_new process.inet.inetPton6_nil hntop hmode hselected hallow hnew]
      cases process.inet.inetPton6 text <;> split <;> rfl
    rw [hgate]
    refine enforced_iff_converted (fun ina6 hina6 => hina6) fun hnone haddress => ?_
    rw [HasAddress, hnone] at haddress
    cases haddress

end Enforcement

/-! ## A text that is not an address -/

/-- One number of a dotted address. -/
def octet (digits : CStr) : Option Nat :=
  if digits.length = 0 ∨ 3 < digits.length ∨ !digits.all Char.isDigit then none
  else if digits.head? = some '0' ∧ digits ≠ ['0'] then none
  else
    let n := digits.foldl (fun n c => 10 * n + (c.toNat - '0'.toNat)) 0
    if n < 256 then some n else none

/-- `inet_pton` for IPv4. -/
def dottedPton (text : CStr) : Option (BitVec 32) := do
  match ← (text.splitOn '.').mapM octet with
  | [a, b, c, d] => some (BitVec.ofNat 32 (((a * 256 + b) * 256 + c) * 256 + d))
  | _ => none

/-- `inet_ntop` for IPv4. -/
def dottedNtop (addr : BitVec 32) : CStr :=
  let n := addr.toNat
  let part (n : Nat) : CStr := Nat.toDigits 10 (n % 256)
  part (n / 16777216) ++ '.' :: part (n / 65536) ++ '.' :: part (n / 256) ++ '.' :: part n

/-- A C library without IPv6. -/
def ipv4Only : InetOps where
  inetPton4 := dottedPton
  inetPton6 _ := none
  inetNtop4 addr := some (dottedNtop addr)
  inetNtop6 _ := none
  inetPton4_nil := rfl
  inetPton6_nil := rfl

/-- A mode with one rule for all calls: `{allow = true, new_address = "..."}`. -/
def redirectingProcess (newAddress : CStr) : NetProcess where
  inet := ipv4Only
  sboxNetworkMode := some "localhost".toList
  defaultNetMode := none
  netRules _ _ := (addNetRuleChain
    (some [some { allow := true, newAddress := some newAddress }])).getD []
  sboxBinaryName := some "nc".toList
  sboxMapPath _ path := { mresResultPath := some path }

def redirectingRule (newAddress : CStr) : NetRule where
  ruletype := .allow
  newAddress := some (some newAddress)

theorem redirectingRule_selected (newAddress : CStr) (call : NetCall) :
    Selected ipv4Only call
      ((redirectingProcess newAddress).netRules "localhost".toList call.addrType)
      (redirectingRule newAddress) := by
  have hmatches : (redirectingRule newAddress).Matches ipv4Only call :=
    ⟨.inl rfl, nofun, nofun, nofun⟩
  exact @Selected.leaf ipv4Only call [] [] _ (fun _ hr => absurd hr not_mem_nil) hmatches rfl

/-- The address `10.0.0.2`, port 80. -/
def tenTwo : Sockaddr := .inet ⟨0x0A000002#32, 80⟩

/-- A call of `connect` is redirected to an address of the loopback network. -/
theorem redirected_to_loopback :
    Enforced ipv4Only "127.0.0.1".toList
      (SocketCall.connect.run (redirectingProcess "127.0.0.1".toList) "connect".toList tenTwo 16) :=
  (new_address_enforced_iff .connect 16 rfl rfl
    (redirectingRule_selected "127.0.0.1".toList _) rfl rfl).2 ⟨by decide, 0x7F000001#32, by decide⟩

/-- A call of `connect` that is to be redirected to `localhost` is made with the address of
the caller. -/
theorem unconvertible_address_ignored :
    ∃ call, SocketCall.connect.question (redirectingProcess "localhost".toList) "connect".toList
        tenTwo = some call ∧
      Selected ipv4Only call
        ((redirectingProcess "localhost".toList).netRules "localhost".toList call.addrType)
        (redirectingRule "localhost".toList) ∧
      (redirectingRule "localhost".toList).ruletype = .allow ∧
      (redirectingRule "localhost".toList).newAddress = some (some "localhost".toList) ∧
      SocketCall.connect.run (redirectingProcess "localhost".toList) "connect".toList tenTwo 16 =
        .ok (.called (some tenTwo) 16) :=
  ⟨_, rfl, redirectingRule_selected "localhost".toList _, rfl, rfl, rfl⟩

/-! ## Returned addresses -/

/-- `offsetof(struct sockaddr_un, sun_path)`. -/
def sunPathOffset : Nat := 2

/-- The path that `reverse_sockaddr_un` reverses, if it does not return before. `addr` is what is
at `from`, in the buffer or behind it. -/
def pathToReverse (addr : Option Sockaddr) (origFromSize : BitVec 32)
    (fromlen : Option (BitVec 32)) : Option CStr := do
  let addr ← addr
  let fromlen ← fromlen
  if fromlen < 1 ∨ origFromSize < 1 then none
  else
    match addr with
    | .unix sunPath => if fromlen.toNat ≤ sunPathOffset ∨ sunPath = [] then none else some sunPath
    | _ => none

/-- The characters that have been stored, with their places in the buffer, and the length. -/
structure ReturnedAddress where
  stores : List (Char × Nat)
  fromlen : Option (BitVec 32)

def reverseSockaddrUn (scratchboxReversePath : CStr → Option CStr) (addr : Option Sockaddr)
    (origFromSize : BitVec 32) (fromlen : Option (BitVec 32)) : ReturnedAddress :=
  match (pathToReverse addr origFromSize fromlen).bind scratchboxReversePath with
  | none => ⟨[], fromlen⟩
  | some sboxPath =>
    let maxPathSize := origFromSize.setWidth 64 - BitVec.ofNat 64 sunPathOffset
    if maxPathSize.toNat ≤ sboxPath.length then
      ⟨(sboxPath.take maxPathSize.toNat).zipIdx sunPathOffset, some origFromSize⟩
    else
      ⟨(sboxPath ++ ['\x00']).zipIdx sunPathOffset,
        some (BitVec.ofNat 32 (sunPathOffset + sboxPath.length + 1))⟩

structure ReturnedAddress.Inside (origFromSize : BitVec 32) (result : ReturnedAddress) : Prop where
  stores : ∀ store ∈ result.stores, store.2 < origFromSize.toNat
  fromlen : ∀ len ∈ result.fromlen, len ≤ origFromSize

theorem zipIdx_inside_iff (text : CStr) (start size : Nat) :
    (∀ store ∈ text.zipIdx start, store.2 < size) ↔ text = [] ∨ start + text.length ≤ size := by
  have places := forall_mem_map (f := Prod.snd) (P := (· < size)) (l := text.zipIdx start)
  rw [← places, zipIdx_map_snd]
  simp only [mem_range'_1]
  cases text with
  | nil => simp
  | cons c text =>
    simp only [length_cons, reduceCtorEq, false_or]
    constructor
    · intro inside
      have last := inside (start + text.length) (by omega)
      omega
    · intro fits i place
      omega

theorem origFromSize_of_pathToReverse {addr : Option Sockaddr} {origFromSize : BitVec 32}
    {fromlen : Option (BitVec 32)} {path : CStr}
    (reversed : pathToReverse addr origFromSize fromlen = some path) : 1 ≤ origFromSize.toNat := by
  cases addr with
  | none => cases reversed
  | some addr =>
    cases fromlen with
    | none => cases reversed
    | some fromlen =>
      by_contra empty
      have small : origFromSize < 1 := by
        rw [BitVec.lt_def]
        exact Nat.lt_of_not_le empty
      have nothing : pathToReverse (some addr) origFromSize (some fromlen) = none :=
        if_pos (.inr small)
      rw [nothing] at reversed
      cases reversed

/-- An address that is returned stays in the buffer exactly if it has a size other than `1`, when a
path is reversed; otherwise the length must be right already. -/
theorem returned_address_iff (scratchboxReversePath : CStr → Option CStr) (addr : Option Sockaddr)
    (origFromSize : BitVec 32) (fromlen : Option (BitVec 32)) :
    (reverseSockaddrUn scratchboxReversePath addr origFromSize fromlen).Inside origFromSize ↔
      ((pathToReverse addr origFromSize fromlen).bind scratchboxReversePath).elim
        (∀ len ∈ fromlen, len ≤ origFromSize) fun _ => origFromSize ≠ 1 := by
  unfold reverseSockaddrUn
  cases reversed : (pathToReverse addr origFromSize fromlen).bind scratchboxReversePath with
  | none => exact ⟨fun inside => inside.fromlen, fun same => ⟨fun _ no => (by cases no), same⟩⟩
  | some sboxPath =>
    obtain ⟨path, hpath, -⟩ := Option.bind_eq_some_iff.1 reversed
    have nonempty := origFromSize_of_pathToReverse hpath
    have bound := origFromSize.isLt
    have one : origFromSize ≠ 1 ↔ 2 ≤ origFromSize.toNat := by
      rw [Ne, ← BitVec.toNat_inj]
      show ¬ origFromSize.toNat = 1 ↔ _
      omega
    have size : (origFromSize.setWidth 64 - BitVec.ofNat 64 sunPathOffset).toNat =
        if 2 ≤ origFromSize.toNat then origFromSize.toNat - 2 else 18446744073709551615 := by
      unfold sunPathOffset
      split <;> bv_omega
    rw [Option.elim_some, one]
    dsimp only
    rw [size]
    by_cases fits : 2 ≤ origFromSize.toNat
    · rw [if_pos fits]
      refine iff_of_true ?_ fits
      split
      next cut =>
        refine ⟨(zipIdx_inside_iff _ _ _).2 (.inr ?_), fun len same => ?_⟩
        · rw [length_take, Nat.min_eq_left cut]
          exact Nat.le_of_eq (Nat.add_sub_cancel' fits)
        · cases same
          exact BitVec.le_refl _
      next whole =>
        refine ⟨(zipIdx_inside_iff _ _ _).2 (.inr ?_), fun len same => ?_⟩
        · rw [length_append, length_singleton, sunPathOffset]
          omega
        · cases same
          rw [BitVec.le_def, BitVec.toNat_ofNat, sunPathOffset]
          omega
    · -- The size is `1`, so that no character may be stored.
      rw [if_neg fits]
      refine iff_of_false (fun inside => ?_) fits
      split at inside
      next cut =>
        have outside := (zipIdx_inside_iff _ _ _).1 inside.stores
        rw [take_eq_nil_iff, ← length_eq_zero_iff, sunPathOffset] at outside
        omega
      next whole =>
        have outside := (zipIdx_inside_iff _ _ _).1 inside.stores
        rw [← length_eq_zero_iff, length_append, length_singleton,
          sunPathOffset] at outside
        omega

/-- In a buffer of one byte the subtraction wraps, and the path is stored behind the buffer. -/
theorem address_stored_behind_buffer :
    (reverseSockaddrUn some (some (.unix "s".toList)) 1 (some 4)).stores =
      [('s', 2), ('\x00', 3)] := by
  decide

end Scratchbox
