import FerrumProxy.IpBlockHistory

/-!
# One host in two forms

A listener on an IPv6 socket reports an IPv4 peer in IPv4-mapped form.  `cidr_contains` compares
addresses of one family only, so that an entry for an IPv4 address or network does not match
that form, and an IPv6 entry that does match it leaves the plain address alone.
-/

namespace FerrumProxy

open Str Octets

/-- What IPv4-mapped addresses start with. -/
def mappedFront : List UInt8 := List.replicate 10 0 ++ [0xff, 0xff]

/-- A network of IPv4 addresses. -/
structure Ipv4Net where
  address : Ipv4Addr
  prefixLen : Nat

/-- The address starts with the bits of the network. -/
def Ipv4Net.Covers (net : Ipv4Net) (ip : Ipv4Addr) : Prop :=
  SameBits net.prefixLen net.address.octets ip.octets

def Ipv6Addr.last4 (ip : Ipv6Addr) : Ipv4Addr where
  octets := ip.octets.drop 12
  size := by rw [List.length_drop, ip.size]

/-- The IPv4 address that an IPv6 address is the mapped form of. -/
def IpAddr.mapped? : IpAddr → Option Ipv4Addr
  | .v4 _ => none
  | .v6 ip => if ip.octets.take 12 = mappedFront then some ip.last4 else none

def Cidr.ipv4? (cidr : Cidr) : Option Ipv4Net :=
  match cidr.network with
  | .v4 ip => some ⟨ip, cidr.prefixLen.toNat⟩
  | .v6 _ => none

/-- The IPv4 addresses whose mapped form is in an IPv6 network, as a network: all of them if
it is a wide one. -/
def Cidr.mapped? (cidr : Cidr) : Option Ipv4Net :=
  match cidr.network with
  | .v4 _ => none
  | .v6 ip =>
    if SameBits (min cidr.prefixLen.toNat 96) ip.octets mappedFront then
      some ⟨ip.last4, cidr.prefixLen.toNat - 96⟩
    else none

namespace IpBlockState

variable (state : IpBlockState) (ip : Ipv4Addr)

/-- The networks that count. -/
def networks : List Cidr :=
  state.cidrs ++ (if state.blockVpn then state.vpnFeedCidrs else []) ++
    (if state.blockDatacenter then state.datacenterFeedCidrs else [])

/-- An IPv4 entry names the address. -/
def NamesIpv4 : Prop :=
  .v4 ip ∈ state.exact ∨ ∃ net ∈ state.networks.filterMap Cidr.ipv4?, net.Covers ip

/-- An IPv6 entry that is read as IPv4 names it. -/
def NamesMapped : Prop :=
  (∃ entry ∈ state.exact, entry.mapped? = some ip) ∨
    ∃ net ∈ state.networks.filterMap Cidr.mapped?, net.Covers ip

end IpBlockState

open IpBlockState

/-! ### The two forms -/

theorem Cidr.covers_ipv4_iff (cidr : Cidr) (ip : Ipv4Addr) :
    cidr.Covers (.v4 ip) ↔ ∃ net, cidr.ipv4? = some net ∧ net.Covers ip := by
  obtain ⟨network, prefixLen, hvalid⟩ := cidr
  cases network with
  | v4 net =>
    refine ⟨fun h => ⟨_, rfl, h.2⟩, fun ⟨_, hnet, hcovers⟩ => ?_⟩
    cases hnet
    exact ⟨rfl, hcovers⟩
  | v6 net =>
    refine iff_of_false (fun h => (show (128 : Nat) ≠ 32 by decide) h.1) (fun ⟨_, hnet, _⟩ => ?_)
    cases hnet

theorem Cidr.covers_mapped_iff (cidr : Cidr) (ip : Ipv4Addr) :
    cidr.Covers (.v6 ip.toIpv6Mapped) ↔ ∃ net, cidr.mapped? = some net ∧ net.Covers ip := by
  obtain ⟨network, prefixLen, hvalid⟩ := cidr
  cases network with
  | v4 net =>
    refine iff_of_false (fun h => (show (32 : Nat) ≠ 128 by decide) h.1) (fun ⟨_, hnet, _⟩ => ?_)
    cases hnet
  | v6 net =>
    have hbits : SameBits prefixLen.toNat net.octets (mappedFront ++ ip.octets) ↔
        SameBits (min prefixLen.toNat 96) net.octets mappedFront ∧
          SameBits (prefixLen.toNat - 96) (net.octets.drop 12) ip.octets := sameBits_append_iff
    refine (and_iff_right rfl).trans (hbits.trans ?_)
    by_cases hfront : SameBits (min prefixLen.toNat 96) net.octets mappedFront
    · have hnet : (⟨.v6 net, prefixLen, hvalid⟩ : Cidr).mapped? =
          some ⟨net.last4, prefixLen.toNat - 96⟩ := if_pos hfront
      refine ⟨fun h => ⟨_, hnet, h.2⟩, fun ⟨_, hother, hcovers⟩ => ⟨hfront, ?_⟩⟩
      cases hnet.symm.trans hother
      exact hcovers
    · have hnone : (⟨.v6 net, prefixLen, hvalid⟩ : Cidr).mapped? = none := if_neg hfront
      refine iff_of_false (fun h => hfront h.1) (fun ⟨_, hnet, _⟩ => ?_)
      cases hnone.symm.trans hnet

theorem IpAddr.eq_mapped_iff (entry : IpAddr) (ip : Ipv4Addr) :
    .v6 ip.toIpv6Mapped = entry ↔ entry.mapped? = some ip := by
  cases entry with
  | v4 other => exact iff_of_false (fun h => (nomatch h)) (fun h => (nomatch h))
  | v6 other =>
    constructor
    · intro h
      cases h
      have hfront : ip.toIpv6Mapped.octets.take 12 = mappedFront := rfl
      rw [IpAddr.mapped?, if_pos hfront]
      rfl
    · intro h
      rw [IpAddr.mapped?] at h
      split at h <;> cases h
      next hfront =>
      obtain ⟨octets, hsize⟩ := other
      rw [IpAddr.v6.injEq, Ipv6Addr.mk.injEq]
      exact (congrArg (· ++ octets.drop 12) hfront.symm).trans (List.take_append_drop 12 octets)

section Answers

variable (state : IpBlockState)

theorem IpBlockState.isBlocked_iff (ip : IpAddr) :
    state.isBlocked ip = true ↔
      state.enabled = true ∧ (ip ∈ state.exact ∨ ∃ cidr ∈ state.networks, cidr.Covers ip) := by
  have hnetworks : (∃ cidr ∈ state.networks, cidr.Covers ip) ↔
      (∃ cidr ∈ state.cidrs, cidr.Covers ip) ∨
        (state.blockVpn = true ∧ ∃ cidr ∈ state.vpnFeedCidrs, cidr.Covers ip) ∨
        (state.blockDatacenter = true ∧ ∃ cidr ∈ state.datacenterFeedCidrs, cidr.Covers ip) := by
    unfold networks
    cases state.blockVpn <;> cases state.blockDatacenter <;> simp [or_and_right, exists_or]
  rw [hnetworks]
  simp only [isBlocked, Bool.and_eq_true, Bool.or_eq_true, decide_eq_true_eq,
    any_cidrContains_iff, or_assoc]

theorem exists_mem_filterMap {α β : Type} {f : α → Option β} {p : β → Prop} {xs : List α} :
    (∃ b ∈ xs.filterMap f, p b) ↔ ∃ a ∈ xs, ∃ b, f a = some b ∧ p b := by
  simp only [List.mem_filterMap]
  constructor
  · intro ⟨b, ⟨a, ha, hb⟩, hp⟩
    exact ⟨a, ha, b, hb, hp⟩
  · intro ⟨a, ha, b, hb, hp⟩
    exact ⟨b, ⟨a, ha, hb⟩, hp⟩

theorem IpBlockState.isBlocked_ipv4_iff (ip : Ipv4Addr) :
    state.isBlocked (.v4 ip) = true ↔ state.enabled = true ∧ state.NamesIpv4 ip := by
  rw [state.isBlocked_iff, NamesIpv4, exists_mem_filterMap]
  simp only [Cidr.covers_ipv4_iff]

theorem IpBlockState.isBlocked_mapped_iff (ip : Ipv4Addr) :
    state.isBlocked (.v6 ip.toIpv6Mapped) = true ↔
      state.enabled = true ∧ state.NamesMapped ip := by
  rw [state.isBlocked_iff, NamesMapped, exists_mem_filterMap]
  simp only [Cidr.covers_mapped_iff, ← IpAddr.eq_mapped_iff, exists_eq_right']

end Answers

/-- **When blocking does not depend on the form of an address.**  The list is off, or the
address is named by an IPv4 entry and by an IPv6 entry that is read as IPv4, or by neither. -/
theorem address_form_iff (state : IpBlockState) (ip : Ipv4Addr) :
    state.isBlocked (.v4 ip) = state.isBlocked (.v6 ip.toIpv6Mapped) ↔
      state.enabled = false ∨ (state.NamesIpv4 ip ↔ state.NamesMapped ip) := by
  rw [Bool.eq_iff_iff, state.isBlocked_ipv4_iff, state.isBlocked_mapped_iff]
  cases state.enabled <;> simp

/-- One blocked address. -/
def oneAddress (ip : IpAddr) : IpBlockState where
  enabled := true
  blockVpn := false
  blockDatacenter := false
  exact := {ip}
  cidrs := []
  vpnFeedCidrs := []
  datacenterFeedCidrs := []

/-- A blocked IPv4 address is let in in its mapped form. -/
theorem mapped_form_escapes :
    (oneAddress (.v4 ⟨[192, 0, 2, 1], rfl⟩)).isBlocked (.v4 ⟨[192, 0, 2, 1], rfl⟩) = true ∧
      (oneAddress (.v4 ⟨[192, 0, 2, 1], rfl⟩)).isBlocked
        (.v6 (Ipv4Addr.toIpv6Mapped ⟨[192, 0, 2, 1], rfl⟩)) = false := by
  decide

end FerrumProxy
