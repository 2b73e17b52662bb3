import FerrumProxy.ConfigRoundTrip
import FerrumProxy.ManagerIpBlock

/-!
# Failed IP block requests

A request can fail for its input, against the saved configuration, on loading and on saving.
`add_ip_block_cidr` changes the running list before it loads, and all five handlers change it before
they save.
-/

namespace FerrumProxy

open Str IpBlockState

section Failures

variable {Document : Type} (yaml : SerdeYaml Document) (url : UrlParser)
  (addresses : AddressSyntax) (debug : Text → String)

/-- The running list is already as the request wants it. -/
def IpBlockRequest.Settled (request : IpBlockRequest) (list : IpBlockState) : Prop :=
  match request with
  | .update req =>
    (∀ v ∈ req.enabled, list.enabled = v) ∧ (∀ v ∈ req.blockVpn, list.blockVpn = v) ∧
      ∀ v ∈ req.blockDatacenter, list.blockDatacenter = v
  | .addIp req => ∀ ip, normalizeIpStr addresses req.ip = some ip → ip ∈ list.exact
  | .removeIp rawIp => ∀ ip, normalizeIpStr addresses rawIp = some ip → ip ∉ list.exact
  | .addCidr text => ∀ cidr, parseCidr addresses text = some cidr → cidr ∈ list.cidrs
  | .removeCidr text => ∀ cidr, parseCidr addresses text = some cidr → cidr ∉ list.cidrs

/-- The request is valid, and the saved configuration does not speak against it. -/
def IpBlockRequest.Accepted (request : IpBlockRequest) (saved : IpBlockConfig) : Prop :=
  match request with
  | .update _ => True
  | .addIp req => ∃ ip, normalizeIpStr addresses req.ip = some ip ∧
      ¬ ∃ entry ∈ saved.blockedIps, entry.ip = addresses.toString ip
  | .removeIp rawIp => ∃ ip, normalizeIpStr addresses rawIp = some ip ∧
      ∃ entry ∈ saved.blockedIps, entry.ip = addresses.toString ip
  | .addCidr text => ∃ cidr, parseCidr addresses text = some cidr
  | .removeCidr text => text ∈ saved.blockedCidrs

/-- The running list is already as the request makes it before it loads. -/
def IpBlockRequest.EarlySettled (request : IpBlockRequest) (list : IpBlockState) : Prop :=
  match request with
  | .addCidr _ => request.Settled addresses list
  | _ => True

/-- A network is added only with the file readable or the network already in the
running list, and an accepted request whose save fails finds the running list as
it wants it and the file as it was. -/
def IpBlockRequest.Harmless (request : IpBlockRequest) (disk : Disk Document)
    (state : ManagerState Document) : Prop :=
  match disk.load yaml url state.file with
  | .error _ => request.EarlySettled addresses state.ipBlock
  | .ok config =>
    request.Accepted addresses config.ipBlock →
      ∀ failure ∈ disk.saveError,
        request.Settled addresses state.ipBlock ∧ failure.2 = state.file

variable {yaml url addresses debug} {request : IpBlockRequest} {plan : IpBlockPlan}

variable {α : Type} {o : Option α} {a : α} {P : α → Prop} {response : ManagerResponse}

theorem forall_eq_some_iff (h : o = some a) : (∀ x, o = some x → P x) ↔ P a := by
  subst h
  exact ⟨fun h => h a rfl, fun h x hx => by cases hx; exact h⟩

theorem exists_eq_some_iff (h : o = some a) : (∃ x, o = some x ∧ P x) ↔ P a := by
  subst h
  exact ⟨fun ⟨x, hx, hP⟩ => by cases hx; exact hP, fun h => ⟨a, rfl, h⟩⟩

/-- Filtering a value out of a list changes nothing exactly when it is not there. -/
theorem filter_ne_eq_self_iff [DecidableEq α] {xs : List α} {x : α} :
    xs.filter (fun y => !(y == x)) = xs ↔ x ∉ xs := by
  rw [List.filter_eq_self]
  constructor
  · intro hall hmem
    have hkept := hall x hmem
    rw [beq_self_eq_true] at hkept
    cases hkept
  · intro hnot y hy
    rw [Bool.not_eq_true', beq_eq_false_iff_ne]
    exact fun heq => hnot (heq ▸ hy)

theorem onRuntime_eq_self_iff (req : UpdateIpBlockRequest) (list : IpBlockState) :
    req.onRuntime list = list ↔ (IpBlockRequest.update req).Settled addresses list := by
  obtain ⟨enabled, blockVpn, blockDatacenter⟩ := req
  obtain ⟨e, v, d, exact, cidrs, vpnFeed, datacenterFeed⟩ := list
  dsimp only [UpdateIpBlockRequest.onRuntime, IpBlockRequest.Settled]
  cases enabled <;> cases blockVpn <;> cases blockDatacenter <;>
    simp [setEnabled, setBlockVpn, setBlockDatacenter,
      eq_comm]

theorem change_eq_self_iff (hplans : request.Plans addresses debug plan) (list : IpBlockState) :
    plan.change (plan.first list) = list ↔ request.Settled addresses list := by
  obtain ⟨e, v, d, exact, cidrs, vpnFeed, datacenterFeed⟩ := list
  cases hplans with
  | update req => exact onRuntime_eq_self_iff req _
  | @addIp req ip hip =>
    refine Iff.trans ?_ (forall_eq_some_iff hip).symm
    simp [addIp]
  | @removeIp rawIp ip hip =>
    refine Iff.trans ?_ (forall_eq_some_iff hip).symm
    simp [removeIp]
  | @addCidr text cidr hparse =>
    refine Iff.trans ?_ (forall_eq_some_iff hparse).symm
    simp [addCidr, hparse, pushNew_eq_self]
  | removeCidr text =>
    cases hparse : parseCidr addresses text with
    | none =>
      refine iff_of_true ?_ (fun cidr h => ?_)
      · dsimp only [removeCidr, id]
        rw [hparse]
      · rw [hparse] at h
        cases h
    | some cidr =>
      refine Iff.trans ?_ (forall_eq_some_iff hparse).symm
      rw [← filter_ne_eq_self_iff]
      simp only [removeCidr, hparse, id, mk.injEq, true_and, and_true]

theorem accepted_iff (hplans : request.Plans addresses debug plan) (saved : IpBlockConfig) :
    (∃ edited, plan.edit saved = .ok edited) ↔ request.Accepted addresses saved := by
  cases hplans with
  | update req => exact iff_of_true ⟨_, rfl⟩ trivial
  | @addIp req ip hip =>
    refine Iff.trans ?_ (exists_eq_some_iff hip).symm
    exact ⟨fun ⟨_, h⟩ => (pushIp_eq_ok.mp h).1, fun h => ⟨_, pushIp_eq_ok.mpr ⟨h, rfl⟩⟩⟩
  | @removeIp rawIp ip hip =>
    refine Iff.trans ?_ (exists_eq_some_iff hip).symm
    exact ⟨fun ⟨_, h⟩ => (retainIps_eq_ok.mp h).1, fun h => ⟨_, retainIps_eq_ok.mpr ⟨h, rfl⟩⟩⟩
  | @addCidr text cidr hparse => exact iff_of_true ⟨_, rfl⟩ ⟨cidr, hparse⟩
  | removeCidr text =>
    exact ⟨fun ⟨_, h⟩ => (retainCidrs_eq_ok.mp h).1, fun h => ⟨_, retainCidrs_eq_ok.mpr ⟨h, rfl⟩⟩⟩

theorem not_accepted_of_invalid (hrefused : request.Refused addresses debug response)
    (saved : IpBlockConfig) : ¬ request.Accepted addresses saved := by
  intro haccepted
  cases hrefused with
  | addIp hip | removeIp hip =>
    obtain ⟨ip, hsome, _⟩ := haccepted
    rw [hip] at hsome
    cases hsome
  | addCidr hparse =>
    obtain ⟨cidr, hsome⟩ := haccepted
    rw [hparse] at hsome
    cases hsome

theorem first_eq_self_iff (hplans : request.Plans addresses debug plan) (list : IpBlockState) :
    plan.first list = list ↔ request.EarlySettled addresses list := by
  have hchange := change_eq_self_iff hplans list
  cases hplans with
  | addCidr hparse => exact hchange
  | _ => exact iff_of_true rfl trivial

theorem earlySettled_of_invalid (hrefused : request.Refused addresses debug response)
    (list : IpBlockState) : request.EarlySettled addresses list := by
  cases hrefused with
  | addIp | removeIp => trivial
  | addCidr hparse =>
    intro cidr hsome
    rw [hparse] at hsome
    cases hsome

end Failures

/-! ### A list that has changed -/

end FerrumProxy
