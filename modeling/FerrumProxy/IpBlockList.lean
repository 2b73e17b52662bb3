import FerrumProxy.ConfigTypes
import FerrumProxy.TextStrings

/-!
# The IP block list

`IpBlockList` keeps parsed addresses and networks; the configuration keeps their texts.  How an
address is read and written is the standard library's business: `AddressSyntax` carries the one law
used of it.
-/

namespace FerrumProxy

open Str

/-- `IpAddr::from_str` and `IpAddr::to_string`. -/
structure AddressSyntax where
  fromStr : Text → Option IpAddr
  toString : IpAddr → Text
  fromStr_toString : ∀ ip, fromStr (toString ip) = some ip

/-! ### Networks -/

/-- The longest network part of an address. -/
def IpAddr.maxPrefix : IpAddr → Nat
  | .v4 _ => 32
  | .v6 _ => 128

/-- A network as `parse_cidr` gives it. -/
structure Cidr where
  network : IpAddr
  prefixLen : UInt8
  valid : prefixLen.toNat ≤ network.maxPrefix
  deriving DecidableEq

/-- `str::parse::<u8>`. -/
def parseU8 (s : Text) : Option UInt8 :=
  (parseU16 s).bind (fun n => if n.toNat < 256 then some (UInt8.ofNat n.toNat) else none)

def parseCidr (addresses : AddressSyntax) (cidr : Text) : Option Cidr := do
  let (ipStr, prefixStr) ← splitOnce '/' cidr
  let ip ← addresses.fromStr (trim ipStr)
  let prefixLen ← parseU8 (trim prefixStr)
  if hvalid : prefixLen.toNat ≤ ip.maxPrefix then some ⟨ip, prefixLen, hvalid⟩ else none

/-- The number that an address is in network order. -/
def addressBits (width : Nat) (octets : List UInt8) : BitVec width :=
  BitVec.ofNat width (octets.foldl (fun n b => 256 * n + b.toNat) 0)

/-- Two addresses agree in their first bits. -/
def samePrefix {width : Nat} (prefixLen : Nat) (net addr : BitVec width) : Bool :=
  if prefixLen = 0 then true
  else
    let mask := BitVec.allOnes width <<< (width - prefixLen)
    (net &&& mask) == (addr &&& mask)

def cidrContains (cidr : Cidr) (ip : IpAddr) : Bool :=
  match cidr.network, ip with
  | .v4 net, .v4 addr =>
    samePrefix cidr.prefixLen.toNat (addressBits 32 net.octets) (addressBits 32 addr.octets)
  | .v6 net, .v6 addr =>
    samePrefix cidr.prefixLen.toNat (addressBits 128 net.octets) (addressBits 128 addr.octets)
  | _, _ => false

def normalizeIpStr (addresses : AddressSyntax) (s : Text) : Option IpAddr :=
  addresses.fromStr (trim s)

/-! ### The list -/

/-- `if !xs.contains(&x) { xs.push(x) }`. -/
def pushNew {α : Type} [DecidableEq α] (xs : List α) (x : α) : List α :=
  if x ∈ xs then xs else xs ++ [x]

open List

theorem mem_pushNew {α : Type} [DecidableEq α] {xs : List α} {x y : α} :
    y ∈ pushNew xs x ↔ y ∈ xs ∨ y = x := by
  unfold pushNew
  split
  · rename_i hmem
    exact ⟨Or.inl, fun h => h.elim id (fun heq => heq ▸ hmem)⟩
  · rw [mem_append, mem_singleton]

theorem pushNew_eq_self {α : Type} [DecidableEq α] {xs : List α} {x : α} :
    pushNew xs x = xs ↔ x ∈ xs := by
  unfold pushNew
  split
  · rename_i hmem
    exact iff_of_true rfl hmem
  · rename_i hmem
    refine iff_of_false (fun h => ?_) hmem
    have hlength := congrArg length h
    rw [length_append] at hlength
    exact Nat.succ_ne_self _ hlength

/-- The running list. -/
structure IpBlockState where
  enabled : Bool
  blockVpn : Bool
  blockDatacenter : Bool
  exact : Finset IpAddr
  cidrs : List Cidr
  vpnFeedCidrs : List Cidr
  datacenterFeedCidrs : List Cidr

namespace IpBlockState

variable (addresses : AddressSyntax)

/-- `IpBlockList::new`; entries that do not parse are passed over. -/
def new (config : IpBlockConfig) : IpBlockState where
  enabled := config.enabled
  blockVpn := config.blockVpn
  blockDatacenter := config.blockDatacenter
  exact := (config.blockedIps.filterMap (fun entry => addresses.fromStr entry.ip)).toFinset
  cidrs := config.blockedCidrs.filterMap (parseCidr addresses)
  vpnFeedCidrs := []
  datacenterFeedCidrs := []

def isBlocked (state : IpBlockState) (ip : IpAddr) : Bool :=
  state.enabled &&
    (decide (ip ∈ state.exact) || state.cidrs.any (cidrContains · ip) ||
      (state.blockVpn && state.vpnFeedCidrs.any (cidrContains · ip)) ||
      (state.blockDatacenter && state.datacenterFeedCidrs.any (cidrContains · ip)))

def addIp (state : IpBlockState) (ip : IpAddr) : IpBlockState :=
  { state with exact := insert ip state.exact }

def removeIp (state : IpBlockState) (ip : IpAddr) : IpBlockState :=
  { state with exact := state.exact.erase ip }

/-- The new list, and whether the text is a network. -/
def addCidr (state : IpBlockState) (cidr : Text) : IpBlockState × Bool :=
  match parseCidr addresses cidr with
  | some parsed => ({ state with cidrs := pushNew state.cidrs parsed }, true)
  | none => (state, false)

def removeCidr (state : IpBlockState) (cidr : Text) : IpBlockState :=
  match parseCidr addresses cidr with
  | some parsed => { state with cidrs := state.cidrs.filter (fun c => !(c == parsed)) }
  | none => state

def setEnabled (state : IpBlockState) (enabled : Bool) : IpBlockState :=
  { state with enabled := enabled }

def setBlockVpn (state : IpBlockState) (block : Bool) : IpBlockState :=
  { state with blockVpn := block }

def setBlockDatacenter (state : IpBlockState) (block : Bool) : IpBlockState :=
  { state with blockDatacenter := block }

end IpBlockState

/-! ### What a configuration blocks -/

/-- The addresses that a saved configuration blocks, read off its texts. -/
def IpBlockConfig.Blocks (addresses : AddressSyntax) (config : IpBlockConfig) (ip : IpAddr) :
    Prop :=
  config.enabled = true ∧
    ((∃ entry ∈ config.blockedIps, addresses.fromStr entry.ip = some ip) ∨
      ∃ text ∈ config.blockedCidrs, ∃ cidr,
        parseCidr addresses text = some cidr ∧ cidrContains cidr ip = true)

namespace IpBlockState

variable (addresses : AddressSyntax)

/-- The list has what the configuration denotes, and nothing from the feeds. -/
structure Reflects (state : IpBlockState) (config : IpBlockConfig) : Prop where
  enabled : state.enabled = config.enabled
  exact : ∀ ip, ip ∈ state.exact ↔
    ∃ entry ∈ config.blockedIps, addresses.fromStr entry.ip = some ip
  cidrs : ∀ cidr, cidr ∈ state.cidrs ↔
    ∃ text ∈ config.blockedCidrs, parseCidr addresses text = some cidr
  vpnFeed : state.vpnFeedCidrs = []
  datacenterFeed : state.datacenterFeedCidrs = []

/-- A new state reflects its configuration. -/
theorem reflects_new (config : IpBlockConfig) :
    (new addresses config).Reflects addresses config where
  enabled := rfl
  exact ip := by
    unfold new
    rw [List.mem_toFinset, mem_filterMap]
  cidrs cidr := by
    unfold new
    rw [mem_filterMap]
  vpnFeed := rfl
  datacenterFeed := rfl

variable {addresses} {state : IpBlockState} {config : IpBlockConfig}

section

variable (h : state.Reflects addresses config)

include h

/-- A state blocks what its configuration blocks. -/
theorem Reflects.isBlocked_iff (ip : IpAddr) :
    state.isBlocked ip = true ↔ config.Blocks addresses ip := by
  have hnets : state.cidrs.any (cidrContains · ip) = true ↔
      ∃ text ∈ config.blockedCidrs, ∃ cidr,
        parseCidr addresses text = some cidr ∧ cidrContains cidr ip = true := by
    rw [List.any_eq_true]
    constructor
    · intro hany
      obtain ⟨cidr, hmem, hcontains⟩ := hany
      obtain ⟨text, htext, hparse⟩ := (h.cidrs cidr).mp hmem
      exact ⟨text, htext, cidr, hparse, hcontains⟩
    · intro hany
      obtain ⟨text, htext, cidr, hparse, hcontains⟩ := hany
      exact ⟨cidr, (h.cidrs cidr).mpr ⟨text, htext, hparse⟩, hcontains⟩
  unfold isBlocked IpBlockConfig.Blocks
  rw [h.vpnFeed, h.datacenterFeed, h.enabled, ← hnets, ← h.exact]
  simp

theorem isBlocked_of_reflects (ip : IpAddr) :
    state.isBlocked ip = (new addresses config).isBlocked ip :=
  Bool.eq_iff_iff.mpr
    ((h.isBlocked_iff ip).trans ((reflects_new addresses config).isBlocked_iff ip).symm)

/-! ### Each operation and its change of the configuration -/

theorem Reflects.setEnabled (enabled : Bool) :
    (state.setEnabled enabled).Reflects addresses { config with enabled := enabled } :=
  ⟨rfl, h.exact, h.cidrs, h.vpnFeed, h.datacenterFeed⟩

theorem Reflects.setBlockVpn (block : Bool) :
    (state.setBlockVpn block).Reflects addresses { config with blockVpn := block } :=
  ⟨h.enabled, h.exact, h.cidrs, h.vpnFeed, h.datacenterFeed⟩

theorem Reflects.setBlockDatacenter (block : Bool) :
    (state.setBlockDatacenter block).Reflects addresses { config with blockDatacenter := block } :=
  ⟨h.enabled, h.exact, h.cidrs, h.vpnFeed, h.datacenterFeed⟩

/-- An address is added to both. -/
theorem Reflects.addIp (ip : IpAddr) (reason : Option Text) :
    (state.addIp ip).Reflects addresses { config with
      blockedIps := config.blockedIps ++ [⟨addresses.toString ip, reason⟩] } := by
  refine ⟨h.enabled, ?_, h.cidrs, h.vpnFeed, h.datacenterFeed⟩
  intro other
  have hnew : addresses.fromStr (addresses.toString ip) = some other ↔ other = ip := by
    rw [addresses.fromStr_toString, Option.some.injEq]
    exact eq_comm
  unfold IpBlockState.addIp
  simp only [Finset.mem_insert, h.exact, mem_append, mem_singleton, or_and_right,
    exists_or, exists_eq_left, hnew]
  exact or_comm

/-- Removing the canonical spelling removes the address if there is no other
spelling of it. -/
theorem Reflects.removeIp {ip : IpAddr}
    (hspelled : ∀ entry ∈ config.blockedIps, addresses.fromStr entry.ip = some ip →
      entry.ip = addresses.toString ip) :
    (state.removeIp ip).Reflects addresses { config with
      blockedIps := config.blockedIps.filter
        (fun entry => !(entry.ip == addresses.toString ip)) } := by
  refine ⟨h.enabled, ?_, h.cidrs, h.vpnFeed, h.datacenterFeed⟩
  intro other
  unfold IpBlockState.removeIp
  rw [Finset.mem_erase, h.exact]
  constructor
  · intro hmem
    obtain ⟨hother, entry, hentry, hparse⟩ := hmem
    refine ⟨entry, mem_filter.mpr ⟨hentry, ?_⟩, hparse⟩
    rw [Bool.not_eq_true', beq_eq_false_iff_ne]
    intro hcanonical
    rw [hcanonical, addresses.fromStr_toString] at hparse
    exact hother (Option.some.inj hparse).symm
  · intro hmem
    obtain ⟨entry, hentry, hparse⟩ := hmem
    obtain ⟨hentry, hkept⟩ := mem_filter.mp hentry
    refine ⟨?_, entry, hentry, hparse⟩
    intro hother
    rw [hother] at hparse
    rw [hspelled entry hentry hparse, beq_self_eq_true] at hkept
    cases hkept

/-- So is a network. -/
theorem Reflects.addCidr {text : Text} (hvalid : (state.addCidr addresses text).2 = true) :
    (state.addCidr addresses text).1.Reflects addresses { config with
      blockedCidrs := pushNew config.blockedCidrs text } := by
  unfold IpBlockState.addCidr at hvalid ⊢
  cases hparse : parseCidr addresses text with
  | none =>
    rw [hparse] at hvalid
    cases hvalid
  | some parsed =>
    refine ⟨h.enabled, h.exact, ?_, h.vpnFeed, h.datacenterFeed⟩
    intro cidr
    have hnew : parseCidr addresses text = some cidr ↔ cidr = parsed := by
      rw [hparse, Option.some.injEq]
      exact eq_comm
    simp only [mem_pushNew, h.cidrs, or_and_right, exists_or, exists_eq_left, hnew]

/-- A network that has one spelling is removed from both. -/
theorem Reflects.removeCidr {text : Text}
    (hspelled : ∀ other ∈ config.blockedCidrs, ∀ cidr, parseCidr addresses other = some cidr →
      parseCidr addresses text = some cidr → other = text) :
    (state.removeCidr addresses text).Reflects addresses { config with
      blockedCidrs := config.blockedCidrs.filter (fun other => !(other == text)) } := by
  have hkept : ∀ cidr, (∃ other ∈ config.blockedCidrs.filter (fun other => !(other == text)),
        parseCidr addresses other = some cidr) ↔
      (∃ other ∈ config.blockedCidrs, parseCidr addresses other = some cidr) ∧
        parseCidr addresses text ≠ some cidr := by
    intro cidr
    constructor
    · intro hmem
      obtain ⟨other, hother, hparse⟩ := hmem
      obtain ⟨hother, hne⟩ := mem_filter.mp hother
      refine ⟨⟨other, hother, hparse⟩, fun htext => ?_⟩
      rw [hspelled other hother cidr hparse htext, beq_self_eq_true] at hne
      cases hne
    · intro hmem
      obtain ⟨⟨other, hother, hparse⟩, htext⟩ := hmem
      refine ⟨other, mem_filter.mpr ⟨hother, ?_⟩, hparse⟩
      rw [Bool.not_eq_true', beq_eq_false_iff_ne]
      intro hsame
      exact htext (hsame ▸ hparse)
  refine ⟨?_, ?_, ?_, ?_, ?_⟩ <;> unfold IpBlockState.removeCidr
  · split <;> exact h.enabled
  · split <;> exact h.exact
  · intro cidr
    rw [hkept]
    cases hparse : parseCidr addresses text with
    | none => exact (h.cidrs cidr).trans (iff_self_and.mpr (fun _ heq => by cases heq))
    | some parsed =>
      rw [mem_filter, h.cidrs, Bool.not_eq_true', beq_eq_false_iff_ne, ne_eq, ne_eq,
        Option.some.injEq]
      exact and_congr_right (fun _ => not_congr eq_comm)
  · split <;> exact h.vpnFeed
  · split <;> exact h.datacenterFeed

end

end IpBlockState

/-! ### Addresses in dotted notation

A syntax that can be evaluated: every address as its octets in decimal with dots
between, which is the usual one for IPv4. -/

/-- An octet in decimal. -/
def octetText (b : UInt8) : Text := Nat.toDigits 10 b.toNat

/-- An octet, written without sign and leading zeros. -/
def parseOctet (s : Text) : Option UInt8 :=
  (parseU8 s).filter (fun b => octetText b == s)

theorem parseOctet_octetText (b : UInt8) : parseOctet (octetText b) = some b := by
  have hall : ∀ n < 256, parseOctet (octetText (UInt8.ofNat n)) = some (UInt8.ofNat n) := by
    decide +kernel
  have hb := hall b.toNat b.toNat_lt
  rwa [UInt8.ofNat_toNat] at hb

theorem dot_notMem_octetText (b : UInt8) : '.' ∉ octetText b := by
  have hall : ∀ n < 256, '.' ∉ octetText (UInt8.ofNat n) := by decide +kernel
  have hb := hall b.toNat b.toNat_lt
  rwa [UInt8.ofNat_toNat] at hb

def dotted : List UInt8 → Text
  | [] => []
  | [b] => octetText b
  | b :: c :: rest => octetText b ++ '.' :: dotted (c :: rest)

theorem split_dotted (b : UInt8) (rest : List UInt8) :
    split '.' (dotted (b :: rest)) = (b :: rest).map octetText := by
  induction rest generalizing b with
  | nil => exact split_of_notMem (dot_notMem_octetText b)
  | cons c rest ih =>
    rw [dotted, split_append (dot_notMem_octetText b), ih c]
    rfl

theorem mapM_parseOctet (octets : List UInt8) :
    (octets.map octetText).mapM parseOctet = some octets := by
  induction octets with
  | nil => rfl
  | cons b rest ih =>
    rw [map_cons, mapM_cons, parseOctet_octetText, ih]
    rfl

def dottedSyntax : AddressSyntax where
  fromStr s := ((split '.' s).mapM parseOctet).bind IpAddr.ofOctets
  toString ip := dotted ip.octets
  fromStr_toString ip := by
    have hsplit : split '.' (dotted ip.octets) = ip.octets.map octetText := by
      cases hoctets : ip.octets with
      | nil =>
        have hempty := ofOctets_octets ip
        rw [hoctets] at hempty
        cases hempty
      | cons b rest => exact split_dotted b rest
    rw [hsplit, mapM_parseOctet]
    exact ofOctets_octets ip

end FerrumProxy
