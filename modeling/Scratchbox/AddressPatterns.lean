import Scratchbox.NetRules

/-!
# Address patterns

`net_rules.c` compares addresses with patterns. A pattern `P/n` should match the addresses that
have the same first `n` bits. The address is masked, but `P` is not, so that a pattern with
other bits behind the first `n` matches nothing. An IPv6 pattern without a slash should match the
address however it is written, but it is only compared as a text.

`address_patterns_iff` says which patterns match as they should.
-/

namespace Scratchbox

/-- What `inet_pton` reads as an address. -/
structure InetOps.Numeric (inet : InetOps) : Prop where
  digit {text : CStr} {addr : BitVec 32} :
    inet.inetPton4 text = some addr → text.head?.any Char.isDigit = true
  noSlash4 {text : CStr} {addr : BitVec 32} : inet.inetPton4 text = some addr → '/' ∉ text
  noSlash6 {text : CStr} {addr : In6Addr} : inet.inetPton6 text = some addr → '/' ∉ text
  notAny : inet.inetPton6 "IN6ADDR_ANY".toList = none

def in6Bit (addr : In6Addr) (i : Nat) : Bool := (addr[i / 8]?.getD 0).getMsbD (i % 8)

inductive AddressPattern where
  | ipv4 (addr net : BitVec 32) (n : Nat)
  | ipv6 (addr net : In6Addr) (n : Nat)
  | whole (addr net : In6Addr)

namespace AddressPattern

inductive Written (inet : InetOps) (address : CStr) : CStr → AddressPattern → Prop
  | ipv4 {addr net : BitVec 32} {text bits : CStr} {n : Nat} :
      inet.inetPton4 address = some addr → inet.inetPton4 text = some net → atoi bits = n →
      0 < n → n ≤ 32 → Written inet address (text ++ '/' :: bits) (.ipv4 addr net n)
  | ipv6 {addr net : In6Addr} {text bits : CStr} {n : Nat} :
      inet.inetPton6 address = some addr → inet.inetPton6 text = some net → atoi bits = n →
      0 < n → n ≤ 128 → Written inet address (text ++ '/' :: bits) (.ipv6 addr net n)
  | whole {addr net : In6Addr} {text : CStr} :
      inet.inetPton6 address = some addr → inet.inetPton6 text = some net →
      Written inet address text (.whole addr net)

def compare (inet : InetOps) (address addressPattern : CStr) : AddressPattern → Bool
  | .ipv4 .. => compareIpv4Addrs inet address addressPattern
  | _ => compareIpv6Addrs inet address addressPattern

def Agrees : AddressPattern → Prop
  | .ipv4 addr net n => ∀ i < n, addr.getMsbD i = net.getMsbD i
  | .ipv6 addr net n => ∀ i < n, in6Bit addr i = in6Bit net i
  | .whole addr net => addr = net

/-- The network has no other bits, or the address is written as the pattern. -/
def Exact (address addressPattern : CStr) : AddressPattern → Prop
  | .ipv4 _ net n => ∀ i, n ≤ i → net.getMsbD i = false
  | .ipv6 _ net n => ∀ i, n ≤ i → in6Bit net i = false
  | .whole .. => address = addressPattern

end AddressPattern

/-! ## Masks -/

variable {n : Nat}

theorem masked_iff {masked addr net : Nat → Bool}
    (mask : ∀ i, masked i = (addr i && decide (i < n))) :
    (∀ i, masked i = net i) ↔ (∀ i < n, addr i = net i) ∧ ∀ i, n ≤ i → net i = false := by
  constructor
  · intro same
    refine ⟨fun i first => ?_, fun i rest => ?_⟩
    · simpa [first] using (mask i).symm.trans (same i)
    · simpa [Nat.not_lt.2 rest] using ((mask i).symm.trans (same i)).symm
  · rintro ⟨first, rest⟩ i
    rw [mask]
    rcases Nat.lt_or_ge i n with small | large
    · simpa [small] using first i small
    · simpa [Nat.not_lt.2 large] using (rest i large).symm

theorem masked4_iff {addr net : BitVec 32} (bound : n ≤ 32) :
    addr &&& (BitVec.allOnes 32 <<< (32 - n)) = net ↔
      (∀ i < n, addr.getMsbD i = net.getMsbD i) ∧ ∀ i, n ≤ i → net.getMsbD i = false := by
  have mask (i : Nat) : (addr &&& (BitVec.allOnes 32 <<< (32 - n))).getMsbD i =
      (addr.getMsbD i && decide (i < n)) := by
    have inside : i + (32 - n) < 32 ↔ i < n := by omega
    rw [BitVec.getMsbD_and, BitVec.getMsbD_shiftLeft, BitVec.getMsbD_allOnes,
      decide_eq_decide.2 inside]
  rw [← masked_iff mask]
  exact ⟨fun same i => by rw [same], fun same => BitVec.eq_of_getMsbD_eq fun i _ => same i⟩

variable {addr net : In6Addr}

theorem in6Addr_eq_iff : addr = net ↔ ∀ i, in6Bit addr i = in6Bit net i := by
  refine ⟨fun same i => by rw [same], fun same => Vector.ext fun k inside => ?_⟩
  refine BitVec.eq_of_getMsbD_eq fun j bit => ?_
  have place := same (8 * k + j)
  have byte : (8 * k + j) / 8 = k := by omega
  have rest : (8 * k + j) % 8 = j := by omega
  simpa [in6Bit, byte, rest, inside] using place

theorem getMsbD_in6AddrMask (n : Nat) {k : Nat} (inside : k < 16) {j : Nat} (bit : j < 8) :
    (in6AddrMask n)[k].getMsbD j = decide (8 * k + j < n) := by
  have ones : (0xFF : BitVec 8) = BitVec.allOnes 8 := by decide
  have shifted : ∀ m < 8, ((0xFF <<< (8 - m) : Nat) : BitVec 8) = BitVec.allOnes 8 <<< (8 - m) := by
    decide
  rw [in6AddrMask, Vector.getElem_ofFn]
  dsimp only
  split
  · rw [ones, BitVec.getMsbD_allOnes, decide_eq_decide]
    omega
  next few =>
    split
    · rw [shifted _ (Nat.lt_of_not_le few), BitVec.getMsbD_shiftLeft, BitVec.getMsbD_allOnes,
        decide_eq_decide]
      omega
    · rw [BitVec.ofNat_eq_ofNat, BitVec.getMsbD_zero, eq_comm, decide_eq_false_iff_not]
      omega

theorem masked6_iff :
    Vector.zipWith (· &&& ·) (in6AddrMask n) addr = net ↔
      (∀ i < n, in6Bit addr i = in6Bit net i) ∧ ∀ i, n ≤ i → in6Bit net i = false := by
  rw [in6Addr_eq_iff]
  refine masked_iff fun i => ?_
  unfold in6Bit
  rcases Nat.lt_or_ge (i / 8) 16 with inside | outside
  · have mask := getMsbD_in6AddrMask n inside (Nat.mod_lt i (by decide))
    rw [Nat.div_add_mod] at mask
    simp [inside, mask, Bool.and_comm]
  · simp [Nat.not_lt.2 outside]

/-! ## Comparisons -/

variable {text : CStr}

theorem ne_slash (noSlash : '/' ∉ text) : ∀ c ∈ text, decide (c ≠ '/') = true :=
  fun _ member => decide_eq_true fun same => noSlash (same ▸ member)

theorem cutAtSlash_append (noSlash : '/' ∉ text) (bits : CStr) :
    cutAtSlash (text ++ '/' :: bits) = some (text, bits) := by
  rw [cutAtSlash, List.dropWhile_append_of_pos (ne_slash noSlash),
    List.takeWhile_append_of_pos (ne_slash noSlash)]
  simp

theorem cutAtSlash_of_notMem (noSlash : '/' ∉ text) : cutAtSlash text = none := by
  rw [cutAtSlash, ← List.append_nil text, List.dropWhile_append_of_pos (ne_slash noSlash)]
  rfl

theorem AddressPattern.compare_iff {inet : InetOps} (numeric : inet.Numeric)
    {address addressPattern : CStr} {case : AddressPattern}
    (written : case.Written inet address addressPattern) :
    case.compare inet address addressPattern = true ↔
      case.Agrees ∧ case.Exact address addressPattern := by
  have slash (text bits : CStr) : '/' ∈ text ++ '/' :: bits :=
    List.mem_append_right _ List.mem_cons_self
  cases written with
  | @ipv4 addr net text bits n haddr hnet count positive bound =>
    have other : address ≠ text ++ '/' :: bits := fun same =>
      numeric.noSlash4 haddr (same ▸ slash text bits)
    have digit : (text ++ '/' :: bits).head?.any Char.isDigit = true := by
      have digit := numeric.digit hnet
      cases text with
      | nil => cases digit
      | cons c text => exact digit
    have shift : (32 - (n : Int)).toNat = 32 - n := by omega
    unfold AddressPattern.compare compareIpv4Addrs
    rw [if_neg other, haddr]
    dsimp only
    rw [if_pos digit, cutAtSlash_append (numeric.noSlash4 hnet)]
    dsimp only
    rw [count, if_pos (by omega), hnet, shift, decide_eq_true_iff]
    exact masked4_iff bound
  | @ipv6 addr net text bits n haddr hnet count positive bound =>
    have other : address ≠ text ++ '/' :: bits := fun same =>
      numeric.noSlash6 haddr (same ▸ slash text bits)
    have notAny : text ++ '/' :: bits ≠ "IN6ADDR_ANY".toList := fun same =>
      absurd (same ▸ slash text bits) (by decide)
    unfold AddressPattern.compare compareIpv6Addrs
    rw [if_neg other, haddr]
    dsimp only
    rw [if_neg notAny, cutAtSlash_append (numeric.noSlash6 hnet)]
    dsimp only
    rw [count, if_pos (by omega), hnet, Int.toNat_natCast, decide_eq_true_iff]
    exact masked6_iff
  | @whole addr net _ haddr hnet =>
    unfold AddressPattern.compare compareIpv6Addrs AddressPattern.Agrees AddressPattern.Exact
    by_cases same : address = addressPattern
    · rw [same, hnet, Option.some_inj] at haddr
      rw [if_pos same]
      exact iff_of_true rfl ⟨haddr.symm, same⟩
    · have notAny : addressPattern ≠ "IN6ADDR_ANY".toList := by
        rintro rfl
        rw [numeric.notAny] at hnet
        cases hnet
      rw [if_neg same, haddr]
      dsimp only
      rw [if_neg notAny, cutAtSlash_of_notMem (numeric.noSlash6 hnet)]
      exact iff_of_false Bool.false_ne_true fun both => same both.2

/-- A pattern matches the addresses that it should match, exactly if it has no other bits than those
that count, or is written as the address. -/
theorem address_patterns_iff {inet : InetOps} (numeric : inet.Numeric)
    {address addressPattern : CStr} {case : AddressPattern}
    (written : case.Written inet address addressPattern) :
    (case.compare inet address addressPattern = true ↔ case.Agrees) ↔
      (case.Agrees → case.Exact address addressPattern) := by
  rw [AddressPattern.compare_iff numeric written]
  exact and_iff_left_iff_imp

def in6addrLoopback : In6Addr := Vector.ofFn fun i => if i.val = 15 then 1 else 0

def loopbackOnly : InetOps where
  inetPton4 text :=
    if text = "127.0.0.1".toList then some 0x7F000001#32
    else if text = "127.0.0.0".toList then some 0x7F000000#32
    else none
  inetPton6 text :=
    if text = "::1".toList ∨ text = "0::1".toList then some in6addrLoopback else none
  inetNtop4 _ := none
  inetNtop6 _ := none
  inetPton4_nil := rfl
  inetPton6_nil := rfl

theorem loopbackOnly_text {text : CStr} {addr : BitVec 32}
    (read : loopbackOnly.inetPton4 text = some addr) :
    text = "127.0.0.1".toList ∨ text = "127.0.0.0".toList := by
  unfold loopbackOnly at read
  dsimp only at read
  split at read
  next same => exact .inl same
  next => exact .inr (Option.ite_none_right_eq_some.1 read).1

theorem numeric_loopbackOnly : loopbackOnly.Numeric where
  digit read := by
    obtain rfl | rfl := loopbackOnly_text read <;> decide
  noSlash4 read := by
    obtain rfl | rfl := loopbackOnly_text read <;> decide
  noSlash6 read := by
    obtain ⟨rfl | rfl, -⟩ := Option.ite_none_right_eq_some.1 read <;> decide
  notAny := rfl

/-- A network that is written with its own bits only. -/
theorem address_patterns_network :
    compareIpv4Addrs loopbackOnly "127.0.0.1".toList "127.0.0.0/8".toList = true ↔
      ∀ i < 8, (0x7F000001#32).getMsbD i = (0x7F000000#32).getMsbD i := by
  refine (address_patterns_iff numeric_loopbackOnly (@AddressPattern.Written.ipv4 loopbackOnly
    "127.0.0.1".toList 0x7F000001#32 0x7F000000#32 "127.0.0.0".toList "8".toList 8 rfl rfl
    (by decide) (by decide) (by decide))).2 fun _ i large => ?_
  rcases Nat.lt_or_ge i 32 with inside | outside
  · revert i
    decide
  · exact BitVec.getMsbD_of_ge _ i outside

/-- An address is not in its own network, and not the same as itself in another notation. -/
theorem loopback_unmatched :
    compareIpv4Addrs loopbackOnly "127.0.0.1".toList "127.0.0.1/8".toList = false ∧
      compareIpv6Addrs loopbackOnly "::1".toList "0::1".toList = false := by
  decide

end Scratchbox
