import FerrumProxy.Histories
import FerrumProxy.IpBlockList
import FerrumProxy.OctetBits
import FerrumProxy.TextLines

/-!
# What the block list blocks

The list changes by its operations and by feeds that are loaded in the background.  Each of
the writes is made under one lock, so that a run is a sequence of them in some order.
-/

namespace FerrumProxy

open Str Runs Octets

/-! ### Networks as bits -/

/-- The address is of the network's family and starts with its bits. -/
def Cidr.Covers (cidr : Cidr) (ip : IpAddr) : Prop :=
  cidr.network.maxPrefix = ip.maxPrefix ∧
    SameBits cidr.prefixLen.toNat cidr.network.octets ip.octets

theorem samePrefix_iff {width count : Nat} {net addr : List UInt8} (hcount : count ≤ width)
    (hnet : width = 8 * net.length) (haddr : width = 8 * addr.length) :
    samePrefix count (addressBits width net) (addressBits width addr) = true ↔
      SameBits count net addr := by
  unfold samePrefix
  split
  · rename_i hzero
    refine iff_of_true rfl (fun i hi => ?_)
    omega
  · rw [← masked_value_eq_iff hcount hnet haddr]
    exact beq_iff_eq

/-- The masks of `cidr_contains` compare the first bits. -/
theorem cidrContains_iff (cidr : Cidr) (ip : IpAddr) :
    cidrContains cidr ip = true ↔ cidr.Covers ip := by
  obtain ⟨network, prefixLen, hvalid⟩ := cidr
  cases network with
  | v4 net =>
    cases ip with
    | v4 addr =>
      have hbits := samePrefix_iff (show prefixLen.toNat ≤ 32 from hvalid)
        (show 32 = 8 * net.octets.length by rw [net.size])
        (show 32 = 8 * addr.octets.length by rw [addr.size])
      exact hbits.trans (and_iff_right rfl).symm
    | v6 addr =>
      exact iff_of_false Bool.false_ne_true (fun h => (show (32 : Nat) ≠ 128 by decide) h.1)
  | v6 net =>
    cases ip with
    | v4 addr =>
      exact iff_of_false Bool.false_ne_true (fun h => (show (128 : Nat) ≠ 32 by decide) h.1)
    | v6 addr =>
      have hbits := samePrefix_iff (show prefixLen.toNat ≤ 128 from hvalid)
        (show 128 = 8 * net.octets.length by rw [net.size])
        (show 128 = 8 * addr.octets.length by rw [addr.size])
      exact hbits.trans (and_iff_right rfl).symm

/-- The distance that the mask for a network is shifted, in the source's bytes. -/
def Cidr.maskShift (cidr : Cidr) : UInt8 := UInt8.ofNat cidr.network.maxPrefix - cidr.prefixLen

/-- A mask is shifted by less than the width of its word, and the difference does not wrap
around. -/
theorem Cidr.maskShift_lt (cidr : Cidr) (h : cidr.prefixLen ≠ 0) :
    cidr.maskShift.toNat = cidr.network.maxPrefix - cidr.prefixLen.toNat ∧
      cidr.maskShift.toNat < cidr.network.maxPrefix := by
  have hvalid := cidr.valid
  have hpos : cidr.prefixLen.toNat ≠ 0 := fun hzero => h (UInt8.toNat_inj.mp hzero)
  have hmax : cidr.network.maxPrefix ≤ 128 := by
    cases cidr.network with
    | v4 _ => exact (by decide : (32 : Nat) ≤ 128)
    | v6 _ => exact Nat.le_refl 128
  have hwidth : (UInt8.ofNat cidr.network.maxPrefix).toNat = cidr.network.maxPrefix :=
    Nat.mod_eq_of_lt (by omega)
  have hsub : cidr.maskShift.toNat = cidr.network.maxPrefix - cidr.prefixLen.toNat := by
    have hle : cidr.prefixLen ≤ UInt8.ofNat cidr.network.maxPrefix := by
      rw [UInt8.le_iff_toNat_le, hwidth]
      exact hvalid
    rw [Cidr.maskShift, UInt8.toNat_sub_of_le _ _ hle, hwidth]
  exact ⟨hsub, by omega⟩

/-! ### The writes -/

/-- `fetch_cidr_list` on the text of an answer. -/
def parseFeed (addresses : AddressSyntax) (text : Text) : List Cidr :=
  (((lines text).map trim).filter (fun line => !line.isEmpty && line.head? != some '#')).filterMap
    (parseCidr addresses)

/-- A write to the list; `answer` is the text of a feed, or none if it cannot be fetched. -/
inductive IpBlockOp where
  | addIp (ip : IpAddr)
  | removeIp (ip : IpAddr)
  | addCidr (cidr : Text)
  | removeCidr (cidr : Text)
  | setEnabled (enabled : Bool)
  | setBlockVpn (block : Bool)
  | setBlockDatacenter (block : Bool)
  | loadVpnFeed (config : IpBlockConfig) (answer : Option Text)
  | loadDatacenterFeed (config : IpBlockConfig) (answer : Option Text)

namespace IpBlockOp

variable (addresses : AddressSyntax)

/-- The write; a feed is fetched only if the task's configuration asks for it. -/
def apply (state : IpBlockState) : IpBlockOp → IpBlockState
  | .addIp ip => state.addIp ip
  | .removeIp ip => state.removeIp ip
  | .addCidr cidr => (state.addCidr addresses cidr).1
  | .removeCidr cidr => state.removeCidr addresses cidr
  | .setEnabled enabled => state.setEnabled enabled
  | .setBlockVpn block => state.setBlockVpn block
  | .setBlockDatacenter block => state.setBlockDatacenter block
  | .loadVpnFeed config answer =>
    if config.blockVpn then
      match answer with
      | some text => { state with vpnFeedCidrs := parseFeed addresses text }
      | none => state
    else state
  | .loadDatacenterFeed config answer =>
    if config.blockDatacenter then
      match answer with
      | some text => { state with datacenterFeedCidrs := parseFeed addresses text }
      | none => state
    else state

/-! ### What a write sets -/

def enabled? : IpBlockOp → Option Bool
  | .setEnabled enabled => some enabled
  | _ => none

def blockVpn? : IpBlockOp → Option Bool
  | .setBlockVpn block => some block
  | _ => none

def blockDatacenter? : IpBlockOp → Option Bool
  | .setBlockDatacenter block => some block
  | _ => none

def vpnFeed? : IpBlockOp → Option (List Cidr)
  | .loadVpnFeed config answer =>
    if config.blockVpn then answer.map (parseFeed addresses) else none
  | _ => none

def datacenterFeed? : IpBlockOp → Option (List Cidr)
  | .loadDatacenterFeed config answer =>
    if config.blockDatacenter then answer.map (parseFeed addresses) else none
  | _ => none

def exactAfter (exact : Finset IpAddr) : IpBlockOp → Finset IpAddr
  | .addIp ip => insert ip exact
  | .removeIp ip => exact.erase ip
  | _ => exact

def cidrsAfter (cidrs : List Cidr) : IpBlockOp → List Cidr
  | .addCidr text => ((parseCidr addresses text).map (pushNew cidrs)).getD cidrs
  | .removeCidr text =>
    ((parseCidr addresses text).map
      (fun parsed => cidrs.filter (fun c => !(c == parsed)))).getD cidrs
  | _ => cidrs

def AddsCidr (cidr : Cidr) (op : IpBlockOp) : Prop :=
  ∃ text, op = .addCidr text ∧ parseCidr addresses text = some cidr

def RemovesCidr (cidr : Cidr) (op : IpBlockOp) : Prop :=
  ∃ text, op = .removeCidr text ∧ parseCidr addresses text = some cidr

end IpBlockOp

open IpBlockOp

/-! ### The history -/

section History

variable (addresses : AddressSyntax) (config : IpBlockConfig) (ops : List IpBlockOp)

/-- The address is in the configuration or has been added, and has not been removed since. -/
def ExactPresent (ip : IpAddr) : Prop :=
  Since (· = .addIp ip) (· = .removeIp ip)
    (∃ entry ∈ config.blockedIps, addresses.fromStr entry.ip = some ip) ops

/-- So is the network, as its address and prefix are written. -/
def CidrPresent (cidr : Cidr) : Prop :=
  Since (AddsCidr addresses cidr) (RemovesCidr addresses cidr)
    (∃ text ∈ config.blockedCidrs, parseCidr addresses text = some cidr) ops

/-- A network that counts: by hand, or from a feed whose flag is on. -/
def NetworkPresent (cidr : Cidr) : Prop :=
  CidrPresent addresses config ops cidr ∨
    (lastOf blockVpn? config.blockVpn ops = true ∧
      cidr ∈ lastOf (vpnFeed? addresses) [] ops) ∨
    (lastOf blockDatacenter? config.blockDatacenter ops = true ∧
      cidr ∈ lastOf (datacenterFeed? addresses) [] ops)

/-- **What is blocked after a history.** -/
def BlockedAfter (ip : IpAddr) : Prop :=
  lastOf enabled? config.enabled ops = true ∧
    (ExactPresent addresses config ops ip ∨
      ∃ cidr, NetworkPresent addresses config ops cidr ∧ cidr.Covers ip)

/-- The list after the writes. -/
def IpBlockState.after (state : IpBlockState) : IpBlockState :=
  ops.foldl (apply addresses) state

/-- The list holds what the history says. -/
structure IpBlockState.Holds (state : IpBlockState) : Prop where
  enabled : state.enabled = lastOf enabled? config.enabled ops
  blockVpn : state.blockVpn = lastOf blockVpn? config.blockVpn ops
  blockDatacenter :
    state.blockDatacenter = lastOf blockDatacenter? config.blockDatacenter ops
  exact : ∀ ip, ip ∈ state.exact ↔ ExactPresent addresses config ops ip
  cidrs : ∀ cidr, cidr ∈ state.cidrs ↔ CidrPresent addresses config ops cidr
  vpnFeed : state.vpnFeedCidrs = lastOf (vpnFeed? addresses) [] ops
  datacenterFeed : state.datacenterFeedCidrs = lastOf (datacenterFeed? addresses) [] ops

end History

namespace IpBlockOp

variable {addresses : AddressSyntax} (state : IpBlockState) (op : IpBlockOp)

/-! ### One write -/

/-- Each field after a write. -/
theorem apply_eq :
    op.apply addresses state =
      { enabled := op.enabled?.getD state.enabled
        blockVpn := op.blockVpn?.getD state.blockVpn
        blockDatacenter := op.blockDatacenter?.getD state.blockDatacenter
        exact := op.exactAfter state.exact
        cidrs := op.cidrsAfter addresses state.cidrs
        vpnFeedCidrs := (op.vpnFeed? addresses).getD state.vpnFeedCidrs
        datacenterFeedCidrs := (op.datacenterFeed? addresses).getD state.datacenterFeedCidrs } := by
  cases op with
  | addCidr text =>
    simp only [apply, IpBlockState.addCidr, cidrsAfter]
    cases parseCidr addresses text <;> rfl
  | removeCidr text =>
    simp only [apply, IpBlockState.removeCidr, cidrsAfter]
    cases parseCidr addresses text <;> rfl
  | loadVpnFeed config answer =>
    simp only [apply, vpnFeed?]
    cases config.blockVpn <;> cases answer <;> rfl
  | loadDatacenterFeed config answer =>
    simp only [apply, datacenterFeed?]
    cases config.blockDatacenter <;> cases answer <;> rfl
  | _ => rfl

theorem mem_exactAfter {exact : Finset IpAddr} {ip : IpAddr} :
    ip ∈ op.exactAfter exact ↔ op = .addIp ip ∨ (ip ∈ exact ∧ ¬ op = .removeIp ip) := by
  cases op with
  | addIp other => simp [exactAfter, eq_comm]
  | removeIp other => simp [exactAfter, eq_comm, and_comm]
  | _ => simp [exactAfter]

theorem mem_cidrsAfter {cidrs : List Cidr} {cidr : Cidr} :
    cidr ∈ op.cidrsAfter addresses cidrs ↔
      op.AddsCidr addresses cidr ∨ (cidr ∈ cidrs ∧ ¬ op.RemovesCidr addresses cidr) := by
  have hsame : ∀ parsed : Cidr, some parsed = some cidr ↔ cidr = parsed := by
    intro parsed
    rw [Option.some.injEq]
    exact eq_comm
  cases op with
  | addCidr text =>
    have hadds : (addCidr text).AddsCidr addresses cidr ↔
        parseCidr addresses text = some cidr := by simp [AddsCidr]
    have hkeeps : ¬ (addCidr text).RemovesCidr addresses cidr := by simp [RemovesCidr]
    rw [hadds, and_iff_left hkeeps, cidrsAfter]
    cases parseCidr addresses text with
    | none => simp
    | some parsed =>
      rw [hsame, Option.map_some, Option.getD_some, mem_pushNew]
      exact or_comm
  | removeCidr text =>
    have hadds : ¬ (removeCidr text).AddsCidr addresses cidr := by simp [AddsCidr]
    have hremoves : (removeCidr text).RemovesCidr addresses cidr ↔
        parseCidr addresses text = some cidr := by simp [RemovesCidr]
    rw [hremoves, or_iff_right hadds, cidrsAfter]
    cases parseCidr addresses text with
    | none => simp
    | some parsed =>
      rw [hsame, Option.map_some, Option.getD_some, List.mem_filter, Bool.not_eq_true',
        beq_eq_false_iff_ne]
  | _ => simp [cidrsAfter, AddsCidr, RemovesCidr]

end IpBlockOp

/-! ### Every history -/

section Every

variable {addresses : AddressSyntax} {config : IpBlockConfig} {ops : List IpBlockOp}
  {state : IpBlockState}

theorem IpBlockState.holds_new (addresses : AddressSyntax) (config : IpBlockConfig) :
    (IpBlockState.new addresses config).Holds addresses config [] where
  enabled := rfl
  blockVpn := rfl
  blockDatacenter := rfl
  exact ip := ((reflects_new addresses config).exact ip).trans since_nil.symm
  cidrs cidr := ((reflects_new addresses config).cidrs cidr).trans since_nil.symm
  vpnFeed := rfl
  datacenterFeed := rfl

/-- One more write on both sides. -/
theorem IpBlockState.Holds.apply (h : state.Holds addresses config ops) (op : IpBlockOp) :
    (op.apply addresses state).Holds addresses config (ops ++ [op]) := by
  rw [op.apply_eq]
  refine ⟨?_, ?_, ?_, fun ip => ?_, fun cidr => ?_, ?_, ?_⟩
  · rw [lastOf_snoc, h.enabled]
  · rw [lastOf_snoc, h.blockVpn]
  · rw [lastOf_snoc, h.blockDatacenter]
  · rw [op.mem_exactAfter, ExactPresent, since_snoc, h.exact]
    rfl
  · rw [op.mem_cidrsAfter, CidrPresent, since_snoc, h.cidrs]
    rfl
  · rw [lastOf_snoc, h.vpnFeed]
  · rw [lastOf_snoc, h.datacenterFeed]

theorem IpBlockState.holds_after (addresses : AddressSyntax) (config : IpBlockConfig)
    (ops : List IpBlockOp) :
    ((IpBlockState.new addresses config).after addresses ops).Holds addresses config ops := by
  induction ops using List.reverseRecOn with
  | nil => exact holds_new addresses config
  | append_singleton ops op ih =>
    rw [IpBlockState.after, List.foldl_append]
    exact ih.apply op

theorem any_cidrContains_iff {cidrs : List Cidr} {ip : IpAddr} :
    cidrs.any (cidrContains · ip) = true ↔ ∃ cidr ∈ cidrs, cidr.Covers ip := by
  simp only [List.any_eq_true, cidrContains_iff]

theorem IpBlockState.Holds.isBlocked_iff (h : state.Holds addresses config ops) (ip : IpAddr) :
    state.isBlocked ip = true ↔ BlockedAfter addresses config ops ip := by
  simp only [IpBlockState.isBlocked, BlockedAfter, NetworkPresent, Bool.and_eq_true,
    Bool.or_eq_true, decide_eq_true_eq, any_cidrContains_iff, h.enabled, h.blockVpn,
    h.blockDatacenter, h.exact, h.cidrs, h.vpnFeed, h.datacenterFeed, or_and_right, exists_or,
    and_assoc, exists_and_left, or_assoc]

end Every

/-- **What the block list blocks, after every history of writes.** -/
theorem blocked_after_iff (addresses : AddressSyntax) (config : IpBlockConfig)
    (ops : List IpBlockOp) :
    (∀ ip, ((IpBlockState.new addresses config).after addresses ops).isBlocked ip = true ↔
      BlockedAfter addresses config ops ip) ∧
    ∀ cidr, NetworkPresent addresses config ops cidr → cidr.prefixLen ≠ 0 →
      cidr.maskShift.toNat = cidr.network.maxPrefix - cidr.prefixLen.toNat ∧
        cidr.maskShift.toNat < cidr.network.maxPrefix :=
  ⟨(IpBlockState.holds_after addresses config ops).isBlocked_iff, fun cidr _ => cidr.maskShift_lt⟩

end FerrumProxy
