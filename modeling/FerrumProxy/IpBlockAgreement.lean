import FerrumProxy.ConfigRoundTrip
import FerrumProxy.GuardedRuns
import FerrumProxy.ManagerIpBlock

/-!
# The running block list and the saved one

The file keeps texts and the handlers compare texts, the running list keeps what they denote.  So
the two agree as long as nothing is removed that the file has in more than one spelling.
-/

namespace FerrumProxy

open Str IpBlockState

/-- The networks have the same addresses. -/
def SameNetwork (a b : Cidr) : Prop := ∀ ip, cidrContains a ip = cidrContains b ip

open ProxyConfig

section Agreement

variable {Document : Type} (yaml : SerdeYaml Document) (url : UrlParser)
  (addresses : AddressSyntax) (debug : Text → String)

/-- The running list answers like the list made of the saved configuration. -/
def ManagerState.Agrees (state : ManagerState Document) : Prop :=
  ∀ config, ProxyConfig.load yaml url state.file = .ok config →
    ∀ ip, state.ipBlock.isBlocked ip = (new addresses config.ipBlock).isBlocked ip

/-- No saved entry denotes the address or network that the request names for
removal. -/
def IpBlockRequest.NoneIn (request : IpBlockRequest) (saved : IpBlockConfig) : Prop :=
  match request with
  | .removeIp rawIp => ∀ ip, normalizeIpStr addresses rawIp = some ip →
      ∀ entry ∈ saved.blockedIps, addresses.fromStr entry.ip ≠ some ip
  | .removeCidr text => ∀ cidr, parseCidr addresses text = some cidr →
      ∀ other ∈ saved.blockedCidrs,
        ¬ ∃ cidr', parseCidr addresses other = some cidr' ∧ SameNetwork cidr' cidr
  | _ => True

/-- If the request removes saved texts, then every saved text that denotes the
same address or network is spelled like them. -/
def IpBlockRequest.OneSpelling (request : IpBlockRequest) (saved : IpBlockConfig) : Prop :=
  match request with
  | .removeIp rawIp => ∀ ip, normalizeIpStr addresses rawIp = some ip →
      (∃ entry ∈ saved.blockedIps, entry.ip = addresses.toString ip) →
      ∀ entry ∈ saved.blockedIps, addresses.fromStr entry.ip = some ip →
        entry.ip = addresses.toString ip
  | .removeCidr text => ∀ cidr, parseCidr addresses text = some cidr →
      text ∈ saved.blockedCidrs →
      ∀ other ∈ saved.blockedCidrs,
        (∃ cidr', parseCidr addresses other = some cidr' ∧ SameNetwork cidr' cidr) → other = text
  | _ => True

/-- A request whose file system never fails. -/
def IpBlockRequest.step (state : ManagerState Document) (request : IpBlockRequest) :
    Option (ManagerState Document) :=
  some (request.handle yaml url addresses debug {} state).2

/-- After the request the list and the file agree, and a removal that succeeded
has left nothing behind. -/
def ManagerState.AgreesAfter (state : ManagerState Document) (request : IpBlockRequest) : Prop :=
  (request.handle yaml url addresses debug {} state).2.Agrees yaml url addresses ∧
    ((request.handle yaml url addresses debug {} state).1.isError = false →
      ∀ config, ProxyConfig.load yaml url
        (request.handle yaml url addresses debug {} state).2.file = .ok config →
          request.NoneIn addresses config.ipBlock)

/-- The saved configuration has one spelling of what the request removes. -/
def ManagerState.OneSpelling (state : ManagerState Document) (request : IpBlockRequest) : Prop :=
  ∀ config, ProxyConfig.load yaml url state.file = .ok config →
    request.OneSpelling addresses config.ipBlock

/-- The running list reflects the saved configuration. -/
def ManagerState.InStep (state : ManagerState Document) : Prop :=
  ∃ config, ProxyConfig.load yaml url state.file = .ok config ∧
    state.ipBlock.Reflects addresses config.ipBlock

variable {yaml url addresses debug} {state : ManagerState Document} {config : ProxyConfig}

theorem agrees_of_inStep (h : state.InStep yaml url addresses) :
    state.Agrees yaml url addresses := by
  obtain ⟨saved, hload, hreflects⟩ := h
  intro config hconfig ip
  rw [hload] at hconfig
  cases hconfig
  exact isBlocked_of_reflects hreflects ip

variable {text : Document} {saved : IpBlockConfig} {request : IpBlockRequest} {plan : IpBlockPlan}
  {response : ManagerResponse}

theorem load_edited (hload : load yaml url text = .ok config)
    (ipBlock : IpBlockConfig) :
    ∃ config', load yaml url
        (save yaml { config with ipBlock := ipBlock }) = .ok config' ∧
      config'.ipBlock = ipBlock := by
  obtain ⟨config', hload', heq⟩ := load_save_changed yaml url hload
    (rfl : { config with ipBlock := ipBlock }.listeners = config.listeners)
  exact ⟨config', hload', by rw [heq]⟩

/-- What a request does when nothing fails. -/
theorem handle_steady (hload : load yaml url state.file = .ok config)
    (request : IpBlockRequest) :
    request.handle yaml url addresses debug {} state =
      match request.plan addresses debug with
      | .error response => (response, state)
      | .ok plan =>
        match plan.edit config.ipBlock with
        | .error response => (response, { state with ipBlock := plan.first state.ipBlock })
        | .ok ipBlock =>
          (⟨.noContent, none⟩,
            ⟨plan.change (plan.first state.ipBlock),
              save yaml { config with ipBlock := ipBlock }⟩) := by
  rw [handle_eq]
  cases request.plan addresses debug with
  | error response => rfl
  | ok plan =>
    dsimp only [editConfig, Disk.load]
    rw [hload]
    rfl

theorem reflects_update {list : IpBlockState} (h : list.Reflects addresses saved)
    (req : UpdateIpBlockRequest) :
    (req.onRuntime list).Reflects addresses (req.onConfig saved) := by
  obtain ⟨enabled, blockVpn, blockDatacenter⟩ := req
  have hswitched : (enabled.elim list list.setEnabled).Reflects addresses
      { saved with enabled := enabled.getD saved.enabled } := by
    cases enabled with
    | none => exact h
    | some enabled => exact h.setEnabled enabled
  unfold UpdateIpBlockRequest.onRuntime
  generalize enabled.elim list list.setEnabled = switched at hswitched ⊢
  have hvpn : (blockVpn.elim switched switched.setBlockVpn).Reflects addresses
      { saved with
        enabled := enabled.getD saved.enabled, blockVpn := blockVpn.getD saved.blockVpn } := by
    cases blockVpn with
    | none => exact hswitched
    | some block => exact hswitched.setBlockVpn block
  cases blockDatacenter with
  | none => exact hvpn
  | some block => exact hvpn.setBlockDatacenter block

/-! ### One request -/

/-- A plan that is carried out keeps the list in step with the file. -/
theorem reflects_plan {edited : IpBlockConfig}
    (hload : load yaml url state.file = .ok config)
    (hreflects : state.ipBlock.Reflects addresses config.ipBlock)
    (hspelling : state.OneSpelling yaml url addresses request)
    (hplans : request.Plans addresses debug plan) (hedit : plan.edit config.ipBlock = .ok edited) :
    (plan.change (plan.first state.ipBlock)).Reflects addresses edited := by
  have hspelled := hspelling config hload
  cases hplans with
  | update req =>
    cases hedit
    exact reflects_update hreflects req
  | @addIp req ip hip =>
    rw [(pushIp_eq_ok.mp hedit).2]
    exact hreflects.addIp ip req.reason
  | @removeIp rawIp ip hip =>
    obtain ⟨hfound, rfl⟩ := retainIps_eq_ok.mp hedit
    exact hreflects.removeIp (hspelled ip hip hfound)
  | @addCidr text cidr hparse =>
    cases hedit
    have hvalid : (state.ipBlock.addCidr addresses text).2 = true := by
      unfold addCidr
      rw [hparse]
    exact hreflects.addCidr hvalid
  | removeCidr text =>
    obtain ⟨hfound, rfl⟩ := retainCidrs_eq_ok.mp hedit
    apply hreflects.removeCidr
    intro other hother cidr hparse htext
    exact hspelled cidr htext hfound other hother ⟨cidr, hparse, fun _ => rfl⟩

theorem inStep_handle (hstate : state.InStep yaml url addresses)
    (hspelling : state.OneSpelling yaml url addresses request) :
    (request.handle yaml url addresses debug {} state).2.InStep yaml url addresses := by
  obtain ⟨config, hload, hreflects⟩ := hstate
  rw [handle_steady hload]
  cases hplan : request.plan addresses debug with
  | error response => exact ⟨config, hload, hreflects⟩
  | ok plan =>
    dsimp only
    cases hedit : plan.edit config.ipBlock with
    | error response =>
      refine ⟨config, hload, ?_⟩
      rw [first_of_refused (plans_of_plan hplan) hedit]
      exact hreflects
    | ok edited =>
      obtain ⟨config', hload', heq⟩ := load_edited hload edited
      refine ⟨config', hload', ?_⟩
      rw [heq]
      exact reflects_plan hload hreflects hspelling (plans_of_plan hplan) hedit

theorem isError_of_refused (hplans : request.Plans addresses debug plan)
    (hedit : plan.edit saved = .error response) : response.isError = true := by
  cases hplans with
  | update | addCidr => cases hedit
  | addIp hip =>
    dsimp only [pushIp] at hedit
    split at hedit <;> cases hedit
    rfl
  | removeIp hip =>
    dsimp only [retainIps] at hedit
    split at hedit <;> cases hedit
    rfl
  | removeCidr text =>
    dsimp only [retainCidrs] at hedit
    split at hedit <;> cases hedit
    rfl

theorem forall_loaded_iff {P : ProxyConfig → Prop}
    (hload : load yaml url text = .ok config) :
    (∀ c, load yaml url text = .ok c → P c) ↔ P config := by
  constructor
  · intro h
    exact h config hload
  · intro h c hc
    rw [hload] at hc
    cases hc
    exact h

theorem saved_if_success_iff (hload : load yaml url state.file = .ok config)
    (hplan : request.plan addresses debug = .ok plan) {P : IpBlockConfig → Prop} :
    ((request.handle yaml url addresses debug {} state).1.isError = false →
      ∀ c, load yaml url
        (request.handle yaml url addresses debug {} state).2.file = .ok c → P c.ipBlock) ↔
      ∀ edited, plan.edit config.ipBlock = .ok edited → P edited := by
  rw [handle_steady hload, hplan]
  dsimp only
  cases hedit : plan.edit config.ipBlock with
  | error response =>
    have herror := isError_of_refused (plans_of_plan hplan) hedit
    refine iff_of_true (fun h => ?_) (fun edited h => by cases h)
    rw [herror] at h
    cases h
  | ok edited =>
    obtain ⟨config', hload', heq⟩ := load_edited hload edited
    rw [forall_loaded_iff hload', heq]
    exact ⟨fun h other hother => by cases hother; exact h rfl, fun h _ => h edited rfl⟩

/-- The edit of a removal leaves nothing behind exactly when there was one
spelling. -/
theorem noneIn_iff (hplans : request.Plans addresses debug plan) :
    (∀ edited, plan.edit saved = .ok edited → request.NoneIn addresses edited) ↔
      request.OneSpelling addresses saved := by
  cases hplans with
  | @removeIp rawIp ip hip =>
    constructor
    · intro h other hother hfound
      rw [hip] at hother
      cases hother
      exact forall_filter_ne_iff.mp (h _ (retainIps_eq_ok.mpr ⟨hfound, rfl⟩) ip hip)
    · intro h edited hedit other hother
      rw [hip] at hother
      cases hother
      obtain ⟨hfound, rfl⟩ := retainIps_eq_ok.mp hedit
      exact forall_filter_ne_iff.mpr (h ip hip hfound)
  | removeCidr text =>
    constructor
    · intro h cidr hparse hfound
      exact forall_filter_ne_iff.mp (h _ (retainCidrs_eq_ok.mpr ⟨hfound, rfl⟩) cidr hparse)
    · intro h edited hedit cidr hparse
      obtain ⟨hfound, rfl⟩ := retainCidrs_eq_ok.mp hedit
      exact forall_filter_ne_iff.mpr (h cidr hparse hfound)
  | _ => exact iff_of_true (fun _ _ => trivial) trivial

/-- A request whose input is refused names nothing to remove. -/
theorem oneSpelling_of_invalid (hrefused : request.Refused addresses debug response)
    (saved : IpBlockConfig) : request.OneSpelling addresses saved := by
  cases hrefused with
  | addIp | addCidr => trivial
  | removeIp hip =>
    intro ip hsome
    rw [hip] at hsome
    cases hsome

theorem isError_of_invalid (hrefused : request.Refused addresses debug response) :
    response.isError = true := by
  cases hrefused <;> rfl

/-- One request of an agreeing manager: the list and the file agree afterwards and
a removal has left nothing behind, exactly when there was one spelling. -/
theorem agreesAfter_iff (hstate : state.InStep yaml url addresses) :
    state.AgreesAfter yaml url addresses debug request ↔
      state.OneSpelling yaml url addresses request := by
  obtain ⟨config, hload, hreflects⟩ := hstate
  have hnone : ((request.handle yaml url addresses debug {} state).1.isError = false →
      ∀ c, load yaml url
        (request.handle yaml url addresses debug {} state).2.file = .ok c →
          request.NoneIn addresses c.ipBlock) ↔ state.OneSpelling yaml url addresses request := by
    unfold ManagerState.OneSpelling
    rw [forall_loaded_iff hload]
    cases hplan : request.plan addresses debug with
    | error response =>
      refine iff_of_true (fun hok => ?_) (oneSpelling_of_invalid (refused_of_plan hplan) _)
      rw [handle_steady hload, hplan] at hok
      rw [isError_of_invalid (refused_of_plan hplan)] at hok
      cases hok
    | ok plan => exact (saved_if_success_iff hload hplan).trans (noneIn_iff (plans_of_plan hplan))
  unfold ManagerState.AgreesAfter
  rw [hnone]
  refine and_iff_right_of_imp (fun hspelling => ?_)
  exact agrees_of_inStep (inStep_handle ⟨config, hload, hreflects⟩ hspelling)

/-- **The running list and the saved one.**  Start from the list that
`IpBlockList::new` makes of a loaded configuration.  In every sequence of requests
whose file system never fails, the running list agrees with the saved
configuration after each request and each successful removal leaves nothing
behind, if and only if every removal finds one spelling of what it removes. -/
theorem lists_agree_iff {file : Document} (hload : ProxyConfig.load yaml url file = .ok config)
    (requests : List IpBlockRequest) :
    Runs.Guarded (IpBlockRequest.step yaml url addresses debug)
        (ManagerState.AgreesAfter yaml url addresses debug)
        ⟨new addresses config.ipBlock, file⟩ requests ↔
      Runs.Guarded (IpBlockRequest.step yaml url addresses debug)
        (ManagerState.OneSpelling yaml url addresses)
        ⟨new addresses config.ipBlock, file⟩ requests := by
  have hstart : ManagerState.InStep yaml url addresses
      ⟨new addresses config.ipBlock, file⟩ :=
    ⟨config, hload, reflects_new addresses config.ipBlock⟩
  refine Runs.guarded_congr (fun _ _ hstate _ => agreesAfter_iff hstate) ?_ hstart
    (Runs.guarded_of_forall (fun _ _ _ => trivial) _ : Runs.Guarded _ Runs.Always _ requests)
  intro state request after hstate _ hspelling hstep
  cases hstep
  exact inStep_handle hstate hspelling

end Agreement

/-! ### Two spellings of one network -/

/-- The same network with a leading zero in its length. -/
def tenNetPadded : Text := "10.0.0.0/08".toList

/-- A network is added and removed again. -/
theorem lists_agree_one_network :
    Runs.Guarded (IpBlockRequest.step plainYaml oneUrl dottedSyntax quoted)
      (ManagerState.AgreesAfter plainYaml oneUrl dottedSyntax quoted)
      ⟨new dottedSyntax blockingConfig.ipBlock, blockingConfig⟩
      [.addCidr tenNet, .removeCidr tenNet] := by
  have hload : load plainYaml oneUrl blockingConfig = .ok blockingConfig := rfl
  refine (lists_agree_iff hload _).mpr ⟨fun _ _ => trivial, ?_, trivial⟩
  intro config hconfig cidr _ _ other hother _
  cases hconfig
  exact List.mem_singleton.mp hother

/-- A network is added in two spellings and removed in one: the running list has
lost it, the file still has it. -/
theorem lists_disagree_two_spellings :
    ¬ ∀ (config : ProxyConfig) (requests : List IpBlockRequest),
      ProxyConfig.load plainYaml oneUrl config = .ok config →
      Runs.Guarded (IpBlockRequest.step plainYaml oneUrl dottedSyntax quoted)
        (ManagerState.AgreesAfter plainYaml oneUrl dottedSyntax quoted)
        ⟨new dottedSyntax config.ipBlock, config⟩ requests := by
  intro hall
  obtain ⟨_, _, ⟨hagrees, _⟩, _⟩ := hall blockingConfig
    [.addCidr tenNet, .addCidr tenNetPadded, .removeCidr tenNet] rfl
  have hsame := hagrees _ rfl (.v4 ⟨[10, 1, 2, 3], rfl⟩)
  revert hsame
  decide +kernel

end FerrumProxy
