import FerrumProxy.ConfigLoad
import FerrumProxy.IpBlockList

/-!
# The IP block requests of the manager API

Five handlers change the running block list and the configuration file.  Each loads the file, edits
the loaded configuration, changes the running list and saves; `add_ip_block_cidr` changes the
running list before it loads.  A request is refused for its input, or it has a plan of three parts.
-/

namespace FerrumProxy

open Str

/-- The status of a response. -/
inductive StatusCode where
  | noContent
  | created
  | badRequest
  | unauthorized
  | forbidden
  | notFound
  | conflict
  | internalServerError
  | serviceUnavailable
  deriving DecidableEq

/-- A response of the manager API. -/
structure ManagerResponse where
  status : StatusCode
  error : Option String := none
  deriving DecidableEq

def ManagerResponse.isError (response : ManagerResponse) : Bool :=
  match response.status with
  | .noContent | .created => false
  | _ => true

/-- What the file system does during a request. -/
structure Disk (Document : Type) where
  /-- Why the file cannot be read. -/
  readError : Option String := none
  /-- Why the file cannot be saved, and what the failed save leaves in it. -/
  saveError : Option (String × Document) := none

/-- The running block list and the configuration file. -/
structure ManagerState (Document : Type) where
  ipBlock : IpBlockState
  file : Document

/-- The switches of the list. -/
structure UpdateIpBlockRequest where
  enabled : Option Bool
  blockVpn : Option Bool
  blockDatacenter : Option Bool

/-- An address to block. -/
structure AddIpRequest where
  ip : Text
  reason : Option Text

section Handlers

variable {Document : Type} (yaml : SerdeYaml Document) (url : UrlParser)

/-- `ProxyConfig::load` on a file that is there; it would write a default file in place of a
missing one. -/
def Disk.load (disk : Disk Document) (file : Document) : Except String ProxyConfig :=
  match disk.readError with
  | some message => .error message
  | none => ProxyConfig.load yaml url file

/-- `config.save` and the answer to its outcome. -/
def Disk.save (disk : Disk Document) (state : ManagerState Document) (config : ProxyConfig) :
    ManagerResponse × ManagerState Document :=
  match disk.saveError with
  | none => (⟨.noContent, none⟩, { state with file := config.save yaml })
  | some (message, left) => (⟨.internalServerError, some message⟩, { state with file := left })

/-- Load, edit the configuration, change the running list, save. -/
def editConfig (edit : IpBlockConfig → Except ManagerResponse IpBlockConfig)
    (change : IpBlockState → IpBlockState) (disk : Disk Document)
    (state : ManagerState Document) : ManagerResponse × ManagerState Document :=
  match disk.load yaml url state.file with
  | .error message => (⟨.internalServerError, some message⟩, state)
  | .ok config =>
    match edit config.ipBlock with
    | .error response => (response, state)
    | .ok ipBlock =>
      disk.save yaml { state with ipBlock := change state.ipBlock }
        { config with ipBlock := ipBlock }

/-! ### The handlers -/

def UpdateIpBlockRequest.onConfig (req : UpdateIpBlockRequest) (config : IpBlockConfig) :
    IpBlockConfig :=
  { config with
    enabled := req.enabled.getD config.enabled
    blockVpn := req.blockVpn.getD config.blockVpn
    blockDatacenter := req.blockDatacenter.getD config.blockDatacenter }

def UpdateIpBlockRequest.onRuntime (req : UpdateIpBlockRequest) (state : IpBlockState) :
    IpBlockState :=
  let state := req.enabled.elim state state.setEnabled
  let state := req.blockVpn.elim state state.setBlockVpn
  req.blockDatacenter.elim state state.setBlockDatacenter

def updateIpBlock (req : UpdateIpBlockRequest) :
    Disk Document → ManagerState Document → ManagerResponse × ManagerState Document :=
  editConfig yaml url (fun config => .ok (req.onConfig config)) req.onRuntime

variable (addresses : AddressSyntax) (debug : Text → String)

/-- The new entry, unless its text is there. -/
def pushIp (ip : IpAddr) (reason : Option Text) (config : IpBlockConfig) :
    Except ManagerResponse IpBlockConfig :=
  let ipStr := addresses.toString ip
  if config.blockedIps.any (fun entry => entry.ip == ipStr) then
    .error ⟨.conflict, some ("IP " ++ String.ofList ipStr ++ " is already blocked")⟩
  else
    .ok { config with blockedIps := config.blockedIps ++ [⟨ipStr, reason⟩] }

def invalidIp (text : Text) : ManagerResponse :=
  ⟨.badRequest, some ("invalid IP address: " ++ debug text)⟩

def addIpBlockIp (req : AddIpRequest) (disk : Disk Document) (state : ManagerState Document) :
    ManagerResponse × ManagerState Document :=
  match normalizeIpStr addresses req.ip with
  | none => (invalidIp debug req.ip, state)
  | some ip =>
    editConfig yaml url (pushIp addresses ip req.reason) (·.addIp ip) disk state

/-- Without the entries of that text, of which there must be one. -/
def retainIps (ip : IpAddr) (config : IpBlockConfig) : Except ManagerResponse IpBlockConfig :=
  let ipStr := addresses.toString ip
  let kept := config.blockedIps.filter (fun entry => !(entry.ip == ipStr))
  if kept.length = config.blockedIps.length then
    .error ⟨.notFound, some ("IP " ++ String.ofList ipStr ++ " is not in the block list")⟩
  else
    .ok { config with blockedIps := kept }

def removeIpBlockIp (rawIp : Text) (disk : Disk Document) (state : ManagerState Document) :
    ManagerResponse × ManagerState Document :=
  match normalizeIpStr addresses rawIp with
  | none => (invalidIp debug rawIp, state)
  | some ip => editConfig yaml url (retainIps addresses ip) (·.removeIp ip) disk state

/-- Here the running list changes first. -/
def addIpBlockCidr (cidr : Text) (disk : Disk Document) (state : ManagerState Document) :
    ManagerResponse × ManagerState Document :=
  match state.ipBlock.addCidr addresses cidr with
  | (_, false) => (⟨.badRequest, some ("invalid CIDR: " ++ debug cidr)⟩, state)
  | (ipBlock, true) =>
    editConfig yaml url
      (fun config => .ok { config with blockedCidrs := pushNew config.blockedCidrs cidr })
      id disk { state with ipBlock := ipBlock }

/-- Without that text, which must be there. -/
def retainCidrs (cidr : Text) (config : IpBlockConfig) : Except ManagerResponse IpBlockConfig :=
  let kept := config.blockedCidrs.filter (fun other => !(other == cidr))
  if kept.length = config.blockedCidrs.length then
    .error ⟨.notFound, some ("CIDR " ++ debug cidr ++ " is not in the block list")⟩
  else
    .ok { config with blockedCidrs := kept }

def removeIpBlockCidr (cidr : Text) :
    Disk Document → ManagerState Document → ManagerResponse × ManagerState Document :=
  editConfig yaml url (retainCidrs debug cidr) (·.removeCidr addresses cidr)

end Handlers

/-- The requests of the five handlers. -/
inductive IpBlockRequest where
  | update (req : UpdateIpBlockRequest)
  | addIp (req : AddIpRequest)
  | removeIp (rawIp : Text)
  | addCidr (cidr : Text)
  | removeCidr (cidr : Text)

/-- An authorised request. -/
def IpBlockRequest.handle {Document : Type} (yaml : SerdeYaml Document) (url : UrlParser)
    (addresses : AddressSyntax) (debug : Text → String) :
    IpBlockRequest → Disk Document → ManagerState Document →
      ManagerResponse × ManagerState Document
  | .update req => updateIpBlock yaml url req
  | .addIp req => addIpBlockIp yaml url addresses debug req
  | .removeIp rawIp => removeIpBlockIp yaml url addresses debug rawIp
  | .addCidr cidr => addIpBlockCidr yaml url addresses debug cidr
  | .removeCidr cidr => removeIpBlockCidr yaml url addresses debug cidr

/-! ### What a valid request does -/

/-- The three parts of a request: what it does to the running list before it
loads, its edit of the loaded configuration, and what it does to the running list
before it saves. -/
structure IpBlockPlan where
  first : IpBlockState → IpBlockState
  edit : IpBlockConfig → Except ManagerResponse IpBlockConfig
  change : IpBlockState → IpBlockState

/-- The parts of a request, or why its input is invalid. -/
def IpBlockRequest.plan (addresses : AddressSyntax) (debug : Text → String) :
    IpBlockRequest → Except ManagerResponse IpBlockPlan
  | .update req => .ok ⟨id, fun config => .ok (req.onConfig config), req.onRuntime⟩
  | .addIp req =>
    match normalizeIpStr addresses req.ip with
    | none => .error (invalidIp debug req.ip)
    | some ip => .ok ⟨id, pushIp addresses ip req.reason, (·.addIp ip)⟩
  | .removeIp rawIp =>
    match normalizeIpStr addresses rawIp with
    | none => .error (invalidIp debug rawIp)
    | some ip => .ok ⟨id, retainIps addresses ip, (·.removeIp ip)⟩
  | .addCidr cidr =>
    match parseCidr addresses cidr with
    | none => .error ⟨.badRequest, some ("invalid CIDR: " ++ debug cidr)⟩
    | some _ =>
      .ok
        ⟨fun list => (list.addCidr addresses cidr).1,
          fun config => .ok { config with blockedCidrs := pushNew config.blockedCidrs cidr },
          id⟩
  | .removeCidr cidr => .ok ⟨id, retainCidrs debug cidr, (·.removeCidr addresses cidr)⟩

open IpBlockRequest

theorem handle_eq {Document : Type} (yaml : SerdeYaml Document) (url : UrlParser)
    (addresses : AddressSyntax) (debug : Text → String) (request : IpBlockRequest)
    (disk : Disk Document) (state : ManagerState Document) :
    request.handle yaml url addresses debug disk state =
      match request.plan addresses debug with
      | .error response => (response, state)
      | .ok plan =>
        editConfig yaml url plan.edit plan.change disk
          { state with ipBlock := plan.first state.ipBlock } := by
  cases request with
  | update | removeCidr => rfl
  | addIp req =>
    dsimp only [handle, IpBlockRequest.plan, addIpBlockIp]
    cases normalizeIpStr addresses req.ip <;> rfl
  | removeIp rawIp =>
    dsimp only [handle, IpBlockRequest.plan, removeIpBlockIp]
    cases normalizeIpStr addresses rawIp <;> rfl
  | addCidr cidr =>
    dsimp only [handle, IpBlockRequest.plan, addIpBlockCidr, IpBlockState.addCidr]
    cases parseCidr addresses cidr <;> rfl

/-- The plans of the valid requests, one for each handler. -/
inductive IpBlockRequest.Plans (addresses : AddressSyntax) (debug : Text → String) :
    IpBlockRequest → IpBlockPlan → Prop
  | update (req : UpdateIpBlockRequest) :
      Plans addresses debug (.update req)
        ⟨id, fun config => .ok (req.onConfig config), req.onRuntime⟩
  | addIp {req : AddIpRequest} {ip : IpAddr} (hip : normalizeIpStr addresses req.ip = some ip) :
      Plans addresses debug (.addIp req) ⟨id, pushIp addresses ip req.reason, (·.addIp ip)⟩
  | removeIp {rawIp : Text} {ip : IpAddr} (hip : normalizeIpStr addresses rawIp = some ip) :
      Plans addresses debug (.removeIp rawIp) ⟨id, retainIps addresses ip, (·.removeIp ip)⟩
  | addCidr {text : Text} {cidr : Cidr} (hparse : parseCidr addresses text = some cidr) :
      Plans addresses debug (.addCidr text)
        ⟨fun list => (list.addCidr addresses text).1,
          fun config => .ok { config with blockedCidrs := pushNew config.blockedCidrs text }, id⟩
  | removeCidr (text : Text) :
      Plans addresses debug (.removeCidr text)
        ⟨id, retainCidrs debug text, (·.removeCidr addresses text)⟩

variable {request : IpBlockRequest} {plan : IpBlockPlan} {response : ManagerResponse} {ip : IpAddr}
  {saved edited : IpBlockConfig} {α : Type} {key : α → Text} {k : Text} {xs : List α}

theorem plans_of_plan {addresses : AddressSyntax} {debug : Text → String}
    (hplan : request.plan addresses debug = .ok plan) : request.Plans addresses debug plan := by
  cases request with
  | update req =>
    cases hplan
    exact .update req
  | addIp req =>
    dsimp only [IpBlockRequest.plan] at hplan
    split at hplan <;> cases hplan
    next hip => exact .addIp hip
  | removeIp rawIp =>
    dsimp only [IpBlockRequest.plan] at hplan
    split at hplan <;> cases hplan
    next hip => exact .removeIp hip
  | addCidr text =>
    dsimp only [IpBlockRequest.plan] at hplan
    split at hplan <;> cases hplan
    next hparse => exact .addCidr hparse
  | removeCidr text =>
    cases hplan
    exact .removeCidr text

/-- The requests whose input is refused, with the answers. -/
inductive IpBlockRequest.Refused (addresses : AddressSyntax) (debug : Text → String) :
    IpBlockRequest → ManagerResponse → Prop
  | addIp {req : AddIpRequest} (hip : normalizeIpStr addresses req.ip = none) :
      Refused addresses debug (.addIp req) (invalidIp debug req.ip)
  | removeIp {rawIp : Text} (hip : normalizeIpStr addresses rawIp = none) :
      Refused addresses debug (.removeIp rawIp) (invalidIp debug rawIp)
  | addCidr {text : Text} (hparse : parseCidr addresses text = none) :
      Refused addresses debug (.addCidr text)
        ⟨.badRequest, some ("invalid CIDR: " ++ debug text)⟩

theorem refused_of_plan {addresses : AddressSyntax} {debug : Text → String}
    (hplan : request.plan addresses debug = .error response) :
    request.Refused addresses debug response := by
  cases request with
  | update | removeCidr => cases hplan
  | addIp req =>
    dsimp only [plan] at hplan
    split at hplan <;> cases hplan
    next hip => exact .addIp hip
  | removeIp rawIp =>
    dsimp only [plan] at hplan
    split at hplan <;> cases hplan
    next hip => exact .removeIp hip
  | addCidr text =>
    dsimp only [plan] at hplan
    split at hplan <;> cases hplan
    next hparse => exact .addCidr hparse

/-! ### The edits -/

section Edits

variable {addresses : AddressSyntax} {debug : Text → String}

theorem pushIp_eq_ok {reason : Option Text} :
    pushIp addresses ip reason saved = .ok edited ↔
      (¬ ∃ entry ∈ saved.blockedIps, entry.ip = addresses.toString ip) ∧
        edited = { saved with
          blockedIps := saved.blockedIps ++ [⟨addresses.toString ip, reason⟩] } := by
  unfold pushIp
  dsimp only
  split
  · rename_i hfound
    obtain ⟨entry, hentry, heq⟩ := List.any_eq_true.mp hfound
    exact iff_of_false (fun h => by cases h) (fun h => h.1 ⟨entry, hentry, eq_of_beq heq⟩)
  · rename_i hfound
    have hnone : ¬ ∃ entry ∈ saved.blockedIps, entry.ip = addresses.toString ip := by
      intro h
      obtain ⟨entry, hentry, heq⟩ := h
      exact hfound (List.any_eq_true.mpr ⟨entry, hentry, beq_iff_eq.mpr heq⟩)
    exact ⟨fun h => ⟨hnone, (Except.ok.inj h).symm⟩, fun h => by rw [h.2]⟩

/-- `retain` drops something exactly when the list has the key. -/
theorem length_filter_ne_iff :
    (xs.filter (fun x => !(key x == k))).length = xs.length ↔ ¬ ∃ x ∈ xs, key x = k := by
  rw [List.length_filter_eq_length_iff]
  constructor
  · intro hall hex
    obtain ⟨x, hx, hkey⟩ := hex
    have hkept := hall x hx
    rw [hkey, beq_self_eq_true] at hkept
    cases hkept
  · intro hnone x hx
    rw [Bool.not_eq_true', beq_eq_false_iff_ne]
    exact fun hkey => hnone ⟨x, hx, hkey⟩

/-- What is left has no such property exactly when only the dropped keys have it. -/
theorem forall_filter_ne_iff {P : α → Prop} :
    (∀ x ∈ xs.filter (fun x => !(key x == k)), ¬ P x) ↔ ∀ x ∈ xs, P x → key x = k := by
  constructor
  · intro hnone x hx hP
    by_contra hkey
    have hkept : (!(key x == k)) = true := by
      rw [Bool.not_eq_true', beq_eq_false_iff_ne]
      exact hkey
    exact hnone x (List.mem_filter.mpr ⟨hx, hkept⟩) hP
  · intro hall x hx hP
    obtain ⟨hx, hkept⟩ := List.mem_filter.mp hx
    rw [hall x hx hP, beq_self_eq_true] at hkept
    cases hkept

theorem retainIps_eq_ok :
    retainIps addresses ip saved = .ok edited ↔
      (∃ entry ∈ saved.blockedIps, entry.ip = addresses.toString ip) ∧
        edited = { saved with
          blockedIps := saved.blockedIps.filter
            (fun entry => !(entry.ip == addresses.toString ip)) } := by
  unfold retainIps
  dsimp only
  split
  · rename_i hsame
    exact iff_of_false (fun h => by cases h) (fun h => length_filter_ne_iff.mp hsame h.1)
  · rename_i hshorter
    have hfound := not_not.mp (mt length_filter_ne_iff.mpr hshorter)
    exact ⟨fun h => ⟨hfound, (Except.ok.inj h).symm⟩, fun h => by rw [h.2]⟩

theorem retainCidrs_eq_ok {text : Text} :
    retainCidrs debug text saved = .ok edited ↔
      text ∈ saved.blockedCidrs ∧
        edited = { saved with
          blockedCidrs := saved.blockedCidrs.filter (fun other => !(other == text)) } := by
  have hmem : (∃ other ∈ saved.blockedCidrs, id other = text) ↔ text ∈ saved.blockedCidrs :=
    ⟨fun ⟨other, hother, heq⟩ => heq ▸ hother, fun h => ⟨text, h, rfl⟩⟩
  unfold retainCidrs
  dsimp only
  split
  · rename_i hsame
    exact iff_of_false (fun h => by cases h) (fun h => length_filter_ne_iff.mp hsame (hmem.mpr h.1))
  · rename_i hshorter
    have hfound := hmem.mp (not_not.mp (mt length_filter_ne_iff.mpr hshorter))
    exact ⟨fun h => ⟨hfound, (Except.ok.inj h).symm⟩, fun h => by rw [h.2]⟩

theorem first_of_refused (hplans : request.Plans addresses debug plan)
    (hedit : plan.edit saved = .error response) (list : IpBlockState) : plan.first list = list := by
  cases hplans with
  | addCidr hparse => cases hedit
  | _ => rfl

end Edits

/-! ### Values to run the handlers on -/

/-- A configuration with an empty block list. -/
def blockingConfig : ProxyConfig := { listeners := [], ipBlock := { enabled := true } }

/-- A text between quotes. -/
def quoted (text : Text) : String := "\"" ++ String.ofList text ++ "\""

def tenNet : Text := "10.0.0.0/8".toList

end FerrumProxy
